/-
**Paths into a validated graph.**

A path names a place below the validated root, such as `addresses[2].zip` or `contacts[home]`.  It
is a non-empty list of nodes, kept from its leaf upwards because every operation of a traversal
acts on the leaf.  A node that has neither a name nor a mark is the placeholder of the root: the
first node that is added takes its place.

* `Path.Mark` — what a node says about a container element: nothing, an element without position,
  a position, or a key.
* `Path.push`, `Path.removeLeaf`, `Path.mapLeaf` — the operations on the leaf.
* `Path.text` — the written form.
* `Path.isSubPathOf` — whether a path starts with another one, read as a pattern.
-/
import GraphValidation.Value.Key

namespace GraphValidation

/-! ### Nodes -/

/-- The key of a map entry: a live one of a traversed map, or the text of a parsed expression. -/
inductive Path.Key where
  | entry (key : MapKey)
  | written (text : String)
  deriving DecidableEq, Repr

namespace Path.Key

/-- The text between the brackets. -/
def text : Key → String
  | entry key => key.text
  | written text => text

/-- Two live keys match when they are equal; a written key matches by its text. -/
def agrees : Key → Key → Bool
  | entry a, entry b => a == b
  | a, b => a.text == b.text

end Path.Key

/-- What a node says about the container element it stands for. -/
inductive Path.Mark where
  /-- No element: the node names a property. -/
  | plain
  /-- Some element, without a position. -/
  | element
  /-- The element at a position. -/
  | index (position : Nat)
  /-- The value of a map entry. -/
  | key (key : Path.Key)
  deriving DecidableEq, Repr

namespace Path.Mark

/-- Whether the node stands for an element of a container. -/
def isElement : Mark → Bool
  | plain => false
  | _ => true

/-- The position, where there is one. -/
def index? : Mark → Option Nat
  | index position => some position
  | _ => none

/-- The key, where there is one. -/
def key? : Mark → Option Key
  | key k => some k
  | _ => none

/-- The mark of the element at a position, or of an element without one. -/
def ofIndex? : Option Nat → Mark
  | some position => index position
  | none => element

/-- The bracketed text of a mark. -/
def text : Mark → String
  | plain => ""
  | element => "[]"
  | index position => "[" ++ toString position ++ "]"
  | key k => "[" ++ k.text ++ "]"

/-- Whether a mark satisfies another one, read as a pattern: no mark asks for nothing, an element
without position for any element. -/
def satisfies (mark pattern : Mark) : Bool :=
  match pattern with
  | plain => true
  | element => mark.isElement
  | index position => mark.index? == some position
  | key k => match mark with
    | key own => k.agrees own
    | _ => false

end Path.Mark

/-- One step of a path. -/
structure Path.Node where
  name : Option String
  mark : Path.Mark
  deriving DecidableEq, Repr

namespace Path.Node

/-- The node that stands for the root. -/
def root : Node := ⟨none, .plain⟩

/-- The node of a property. -/
def named (name : String) : Node := ⟨some name, .plain⟩

/-- Whether the node says nothing, as the one of the root does. -/
def isPlaceholder (node : Node) : Bool := node.name.isNone && !node.mark.isElement

/-- The same node with another mark. -/
def withMark (node : Node) (mark : Mark) : Node := { node with mark }

/-- The name followed by the bracketed mark. -/
def text (node : Node) : String := node.name.getD "" ++ node.mark.text

/-- Whether a node satisfies another one, read as a pattern. -/
def satisfies (node pattern : Node) : Bool :=
  node.mark.satisfies pattern.mark && (pattern.name.isNone || pattern.name == node.name)

end Path.Node

/-! ### Paths -/

/-- A non-empty list of nodes: the leaf, and the nodes above it from the nearest to the first. -/
structure Path where
  leaf : Path.Node
  above : List Path.Node
  deriving DecidableEq, Repr

namespace Path

/-- The path of the root. -/
def root : Path := ⟨.root, []⟩

instance : Inhabited Path := ⟨root⟩

/-- All nodes, the first one first. -/
def nodes (path : Path) : List Node := (path.leaf :: path.above).reverse

/-- The number of nodes; the root has one. -/
def length (path : Path) : Nat := path.above.length + 1

/-- Whether the path is that of the root. -/
def isRoot (path : Path) : Bool := path.above.isEmpty && path.leaf.isPlaceholder

/-- Adds a node below the leaf, or in place of the root's placeholder. -/
def push (path : Path) (node : Node) : Path :=
  if path.isRoot then ⟨node, []⟩ else ⟨node, path.leaf :: path.above⟩

/-- Adds the node of a property. -/
def add (path : Path) (name : String) : Path := path.push (.named name)

/-- The path of one property. -/
def ofProperty (name : String) : Path := root.add name

/-- The path without its leaf; of one node the root is left. -/
def removeLeaf (path : Path) : Path :=
  match path.above with
  | [] => root
  | parent :: rest => ⟨parent, rest⟩

/-- The path with another mark on its leaf. -/
def markLeaf (path : Path) (mark : Mark) : Path := { path with leaf := path.leaf.withMark mark }

/-- Joins the texts of nodes: a dot stands before each name but the first text. -/
def joinNodes : Bool → List Node → String
  | _, [] => ""
  | first, node :: rest =>
    if node.isPlaceholder then joinNodes first rest
    else (if !first && node.name.isSome then "." else "") ++ node.text ++ joinNodes false rest

/-- The written form. -/
def text (path : Path) : String := joinNodes true path.nodes

/-- Whether nodes start with nodes that satisfy a list of patterns. -/
def nodesSatisfy : List Node → List Node → Bool
  | _, [] => true
  | [], _ :: _ => false
  | node :: nodes, pattern :: patterns => node.satisfies pattern && nodesSatisfy nodes patterns

/-- Whether the path starts with a path, read as a pattern; the root is the start of every path. -/
def isSubPathOf (path start : Path) : Bool :=
  start.isRoot || nodesSatisfy path.nodes start.nodes

/-! ### Laws of the leaf -/

@[simp] theorem leaf_push (path : Path) (node : Node) : (path.push node).leaf = node := by
  unfold push; split <;> rfl

@[simp] theorem leaf_markLeaf (path : Path) (mark : Mark) :
    (path.markLeaf mark).leaf = path.leaf.withMark mark := rfl

@[simp] theorem isRoot_root : root.isRoot = true := rfl

theorem push_of_isRoot {path : Path} (node : Node) (isRoot : path.isRoot = true) :
    path.push node = ⟨node, []⟩ := by simp [push, isRoot]

/-- Removing the node that was added gives the path back, except that the root comes back without
what its placeholder never had. -/
theorem removeLeaf_push {path : Path} (node : Node) (below : path.isRoot = false) :
    (path.push node).removeLeaf = path := by
  simp [push, below, removeLeaf]

theorem nodes_ne_nil (path : Path) : path.nodes ≠ [] := by simp [nodes]

end Path

end GraphValidation
