/-
**Loading mapping documents.**

The documents of a directory are its files with the extension `json`.  Every one of them is tried,
and what is wrong with any of them is told together.

* `FileSystem` — where texts and listings come from.
* `FileSystem.ofFiles`, `FileSystem.ofTree` — files in memory.
* `MappingLoader.loadDirectory`, `MappingLoader.loadFile` — the declarations of documents.
-/
import GraphValidation.Mapping.Reader

namespace GraphValidation

/-! ### Paths of files -/

namespace FileName

/-- The steps of a path, without those that lead nowhere. -/
def steps (path : String) : List String :=
  ((path.toList.splitOn '/').map String.ofList).filter fun step => step != "" && step != "."

/-- Whether two paths lead to one place. -/
def same (a b : String) : Bool := steps a == steps b

/-- A path from a directory on; one that starts with a slash does not depend on the directory. -/
def join (directory name : String) : String :=
  if name.startsWith "/" then name
  else if directory.endsWith "/" then directory ++ name
  else directory ++ "/" ++ name

/-- Drops steps that lead nowhere off the front of a path, or off the end of a reversed one. -/
def dropIdle : List Char → List Char
  | '/' :: rest => dropIdle rest
  | '.' :: '/' :: rest => dropIdle rest
  | ['.'] => []
  | path => path

/-- What follows a directory in a path that starts with it. -/
def within (directory path : String) : String :=
  if path.startsWith directory then
    let rest := dropIdle (path.toList.drop directory.length)
    String.ofList (dropIdle rest.reverse).reverse
  else path

/-- Whether a path says that it leads to a directory. -/
def saysDirectory (path : String) : Bool :=
  path.endsWith "/" || path.endsWith "/." || path.endsWith "/.."

/-- What follows the last dot of a name that has more than a dot before that. -/
def extension? (name : List Char) : Option (List Char) :=
  match name.reverse.dropWhile (· != '.') with
  | _ :: _ :: _ => some (name.reverse.takeWhile (· != '.')).reverse
  | _ => none

/-- Whether a path is that of a mapping document. -/
def isMapping (path : String) : Bool :=
  match (steps path).getLast? with
  | some name => name != ".." && extension? name.toList == some "json".toList
  | none => false

end FileName

/-! ### File systems -/

/-- Where texts and listings come from.  What cannot be had comes with a reason. -/
structure FileSystem where
  /-- The text of a file. -/
  text : String → Except String String
  /-- The paths of what is in a directory. -/
  listing : String → Except String (List String)

namespace FileSystem

/-- The reason for which there is no file or directory. -/
def notFound (path : String) : String := "not found: " ++ path

/-- The text at a path among the paths of files, whose texts may be missing. -/
def textAmong (files : List (String × Option String)) (path : String) : Except String String :=
  match files.find? fun file => FileName.same file.1 path with
  | some (_, some text) => .ok text
  | _ => .error (notFound path)

/-- The paths that lead straight into a directory, in order. -/
def listingAmong (files : List (String × Option String)) (directory : String) : List String :=
  (files.map (·.1)).filter fun path =>
    (FileName.steps path).dropLast == FileName.steps directory

/-- Files under their paths.  A directory is there exactly when a file is in it. -/
def ofFiles (files : List (String × Option String)) : FileSystem where
  text := textAmong files
  listing directory :=
    match listingAmong files directory with
    | [] => .error (notFound directory)
    | paths => .ok paths

/-- A tree of directories and files, which are named by the steps that lead to them.  Of several
texts of a file the first one counts. -/
structure Tree where
  directories : List (List String)
  texts : List (List String × String)

namespace Tree

/-- The place that a step leads to. -/
def move (place : List String) (step : String) : List String :=
  if step == ".." then place.dropLast else place ++ [step]

/-- All places on the way along some steps, the last one first. -/
def way (steps : List String) : List (List String) :=
  steps.foldl (fun places step => move (places.headD []) step :: places) [[]]

/-- Adds the file at a path, or a directory where there is no text.  What is on the way there is a
directory too. -/
def add (tree : Tree) (path : String) : Option String → Tree
  | none => { tree with directories := way (FileName.steps path) ++ tree.directories }
  | some text =>
    let places := way (FileName.steps path)
    ⟨places.drop 1 ++ tree.directories, (places.headD [], text) :: tree.texts⟩

/-- The tree with some files and directories below a root, which are added in order. -/
def ofFiles (root : String) (files : List (String × Option String)) : Tree :=
  files.foldl (fun tree file => tree.add file.1 file.2)
    ⟨way (FileName.steps root), []⟩

/-- The place that a path leads to, if all places on the way are directories. -/
def place? (tree : Tree) (path : String) : Option (List String) :=
  let places := way (FileName.steps path)
  if (places.drop 1).all tree.directories.contains then places.head? else none

/-- The text of the file at a path. -/
def text? (tree : Tree) (path : String) : Option String := do
  let place ← tree.place? path
  if FileName.saysDirectory path then none else tree.texts.lookup place

/-- The names in the directory at a path, in ascending order. -/
def names? (tree : Tree) (path : String) : Option (List String) := do
  let place ← tree.place? path
  if tree.directories.contains place then
    let inside := (tree.directories ++ tree.texts.map (·.1)).filter fun other =>
      other != [] && other.dropLast == place
    some ((inside.filterMap List.getLast?).eraseDups.mergeSort fun a b => decide (a ≤ b))
  else none

end Tree

/-- Files and directories below a root, the latter without a text. -/
def ofTree (root : String) (files : List (String × Option String)) : FileSystem :=
  let tree := Tree.ofFiles root files
  { text := fun path => match tree.text? path with
      | some text => .ok text
      | none => .error (notFound path)
    listing := fun directory => match tree.names? directory with
      | some names => .ok (names.map (FileName.join directory))
      | none => .error (notFound directory) }

end FileSystem

/-! ### Loading -/

/-- Why documents cannot be loaded. -/
inductive MappingError where
  | unreadable (path reason : String)
  | refused (path : String) (fault : MappingFault)
  /-- A declaration in conflict with an earlier one. -/
  | conflict (path : String) (error : ConfigError)
  | multiple (errors : List MappingError)

/-- The text for a file or directory that cannot be read. -/
def MappingError.unreadableMessage (path reason : String) : String :=
  "IO error reading " ++ path ++ ": " ++ reason

namespace MappingLoader

/-- Adds the declarations of a file up to the first that is in conflict. -/
def loadInto (files : FileSystem) (registry : DeclarationRegistry) (path : String) :
    DeclarationRegistry × Option MappingError :=
  match files.text path with
  | .error reason => (registry, some (.unreadable path reason))
  | .ok text => match MappingDocument.read text with
    | .error fault => (registry, some (.refused path fault))
    | .ok document => match registry.declareAll document.declarations with
      | (registry, error) => (registry, error.map (.conflict path))

/-- Adds the declarations of files in order, and collects what is wrong with any of them. -/
def loadAll (files : FileSystem) (registry : DeclarationRegistry) :
    List String → DeclarationRegistry × List MappingError
  | [] => (registry, [])
  | path :: rest =>
    let (registry, error) := loadInto files registry path
    let (registry, errors) := loadAll files registry rest
    (registry, error.toList ++ errors)

/-- The declarations of a file. -/
def loadFile (files : FileSystem) (path : String) : Except MappingError DeclarationRegistry :=
  match loadInto files .empty path with
  | (registry, none) => .ok registry
  | (_, some error) => .error error

/-- The declarations of all documents of a directory. -/
def loadDirectory (files : FileSystem) (directory : String) :
    Except MappingError DeclarationRegistry :=
  match files.listing directory with
  | .error reason => .error (.unreadable directory reason)
  | .ok paths => match loadAll files .empty (paths.filter FileName.isMapping) with
    | (registry, []) => .ok registry
    | (_, [error]) => .error error
    | (_, errors) => .error (.multiple errors)

end MappingLoader

end GraphValidation
