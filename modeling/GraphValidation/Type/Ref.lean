/-
**Declared types.**

A declared type is a name with type arguments, written `Map<String, List<Person>>`.  The characters
of a name are letters and numbers of any script, the underscore, the dot and the dollar sign; blanks
around names, commas and angle brackets carry no meaning.

* `TypeRef.text` — the written form.
* `TypeRef.parse` — reads a type expression; the words come from `TypeRef.Word.scan`.
* `TypeRef.mapKey?`, `TypeRef.cascadeElement?` — what the entries of a container are.
-/
import GraphValidation.Type.System
import GraphValidation.Text.Blank
import GraphValidation.Json.Basic

namespace GraphValidation

/-- The document tree of the name of a type. -/
def TypeKey.toJson (key : TypeKey) : Json := .string key.name

/-- The document tree of the names of types. -/
def TypeKey.listToJson (keys : List TypeKey) : Json := .array (keys.map TypeKey.toJson)

/-- A declared type. -/
inductive TypeRef where
  | mk (raw : TypeKey) (args : List TypeRef)
  deriving Repr

namespace TypeRef

/-- The type without its arguments. -/
def raw : TypeRef → TypeKey
  | mk raw _ => raw

/-- The type arguments. -/
def args : TypeRef → List TypeRef
  | mk _ args => args

/-- A type without arguments. -/
def named (raw : TypeKey) : TypeRef := ⟨raw, []⟩

/-- The type that admits every value. -/
def object : TypeRef := named .object

instance : Inhabited TypeRef := ⟨object⟩

mutual

/-- Equality of names and arguments. -/
def beq : TypeRef → TypeRef → Bool
  | mk raw args, mk raw' args' => raw == raw' && beqList args args'

/-- Equality of lists of types. -/
def beqList : List TypeRef → List TypeRef → Bool
  | [], [] => true
  | a :: as, b :: bs => beq a b && beqList as bs
  | _, _ => false

end

instance : BEq TypeRef := ⟨beq⟩

mutual

theorem eq_of_beq : ∀ {a b : TypeRef}, beq a b = true → a = b
  | mk raw args, mk raw' args', same => by
    simp only [beq, Bool.and_eq_true, beq_iff_eq] at same
    rw [same.1, eq_of_beqList same.2]

theorem eq_of_beqList : ∀ {as bs : List TypeRef}, beqList as bs = true → as = bs
  | [], [], _ => rfl
  | a :: as, b :: bs, same => by
    simp only [beqList, Bool.and_eq_true] at same
    rw [eq_of_beq same.1, eq_of_beqList same.2]
  | [], _ :: _, same => by simp [beqList] at same
  | _ :: _, [], same => by simp [beqList] at same

end

mutual

theorem beq_self : ∀ a : TypeRef, beq a a = true
  | mk raw args => by simp [beq, beqList_self args]

theorem beqList_self : ∀ as : List TypeRef, beqList as as = true
  | [] => rfl
  | a :: as => by simp [beqList, beq_self a, beqList_self as]

end

instance : LawfulBEq TypeRef where
  eq_of_beq := eq_of_beq
  rfl := beq_self _

instance : DecidableEq TypeRef := fun a b =>
  if same : a == b then .isTrue (eq_of_beq same)
  else .isFalse fun equal => same (equal ▸ beq_self a)

/-! ### The written form -/

mutual

/-- The name, with the arguments in angle brackets where there are any. -/
def text : TypeRef → String
  | mk raw [] => raw.name
  | mk raw (arg :: rest) => raw.name ++ "<" ++ text arg ++ restText rest ++ ">"

/-- The arguments after the first one. -/
def restText : List TypeRef → String
  | [] => ""
  | arg :: rest => ", " ++ text arg ++ restText rest

end

mutual

/-- The document tree. -/
def toJson : TypeRef → Json
  | mk raw args => .ofEntries [("raw", raw.toJson), ("args", .array (argsToJson args))]

/-- The document trees of arguments. -/
def argsToJson : List TypeRef → List Json
  | [] => []
  | arg :: rest => arg.toJson :: argsToJson rest

end

/-! ### Words -/

/-- A word of a type expression. -/
inductive Word where
  | name (text : List Char)
  | openArgs
  | closeArgs
  | comma
  | other (c : Char)
  deriving DecidableEq, Repr

/-- A character of a type's name. -/
def isNameChar (c : Char) : Bool :=
  Text.isAlphanumeric c || c == '_' || c == '.' || c == '$'

/-- Puts a character in front of words: it joins a name that comes next without a gap. -/
def Word.push (c : Char) : List Word → Bool → List Word
  | .name text :: rest, true => .name (c :: text) :: rest
  | words, _ => .name [c] :: words

/-- The words of an expression, and whether the first one starts at once. -/
def Word.scanFrom : List Char → List Word × Bool
  | [] => ([], false)
  | c :: rest =>
    let (words, adjacent) := scanFrom rest
    if isNameChar c then (Word.push c words adjacent, true)
    else if Text.isBlank c then (words, false)
    else if c = '<' then (.openArgs :: words, true)
    else if c = '>' then (.closeArgs :: words, true)
    else if c = ',' then (.comma :: words, true)
    else (.other c :: words, true)

/-- The words of an expression. -/
def Word.scan (text : String) : List Word := (scanFrom text.toList).1

/-! ### Reading -/

/-- A type whose arguments are still open, with those that have been read. -/
structure Open where
  raw : TypeKey
  args : List TypeRef

/-- What has just been read. -/
inductive Progress where
  /-- Nothing of the next type. -/
  | expecting
  /-- A name, which arguments may follow. -/
  | name (raw : TypeKey)
  /-- A whole type. -/
  | type (whole : TypeRef)

/-- The type that has been read. -/
def Progress.type? : Progress → Option TypeRef
  | expecting => none
  | name raw => some (named raw)
  | type whole => some whole

/-- Reads words with some types still open. -/
def readWords (progress : Progress) (frames : List Open) :
    List Word → Except TypeExpressionFault TypeRef
  | [] => match progress.type?, frames with
    | some type, [] => .ok type
    | some _, _ :: _ => .error .unterminatedArguments
    | none, _ => .error .expectedName
  | word :: rest => match progress, word with
    | .expecting, .name text => readWords (.name ⟨String.ofList text⟩) frames rest
    | .expecting, _ => .error .expectedName
    | .name raw, .openArgs => readWords .expecting (⟨raw, []⟩ :: frames) rest
    | progress, word => match progress.type?, frames, word with
      | none, _, _ => .error .expectedName
      | some _, [], _ => .error .trailingCharacters
      | some type, frame :: frames, .comma =>
        readWords .expecting (⟨frame.raw, frame.args ++ [type]⟩ :: frames) rest
      | some type, frame :: frames, .closeArgs =>
        readWords (.type ⟨frame.raw, frame.args ++ [type]⟩) frames rest
      | some _, _ :: _, _ => .error .unterminatedArguments

/-- Reads a type expression. -/
def parse (text : String) : Except ConfigError TypeRef :=
  match readWords .expecting [] (Word.scan text) with
  | .ok type => .ok type
  | .error fault => .error (.invalidTypeExpression text fault)

/-! ### Containers -/

/-- The declared type of the keys, of a map. -/
def mapKey? (types : TypeSystem) (type : TypeRef) : Option TypeRef :=
  if types.isAssignable .map type.raw then type.args.head? else none

/-- The declared type of what a cascade reaches: the values of a map, the elements of a collection
or an array, else the type itself. -/
def cascadeElement? (types : TypeSystem) (type : TypeRef) : Option TypeRef :=
  if types.isAssignable .map type.raw then type.args[1]?
  else if types.isAssignable .iterable type.raw || type.raw == .array then type.args.head?
  else some type

end TypeRef

end GraphValidation
