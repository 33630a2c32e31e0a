/-
**Values of a validated graph.**

A value is a scalar, a container or a bean.  Beans are shared: a value holds a reference, and two
beans are the same exactly when they are one instance.  What a reference says, the identity and the
type of the bean, never changes; its members are looked up in a heap.

* `Value` — the values.
* `Value.equal` — equality: maps without regard to the order of their entries, all other containers
  in order, NaN unequal to itself.
* `Value.runtimeType` — the type that a value has on its own.
* `Value.size?` — the number of characters, elements or entries.
-/
import GraphValidation.Value.Key
import GraphValidation.Number.Binary64

namespace GraphValidation

/-- A reference to a bean. -/
structure BeanRef where
  id : String
  type : TypeKey
  deriving DecidableEq, Repr

namespace BeanRef

/-- Whether two references are to one instance. -/
def same (a b : BeanRef) : Bool := a.id == b.id

/-- The type and the identity of a bean. -/
def text (bean : BeanRef) : String := bean.type.name ++ "@" ++ bean.id

end BeanRef

/-- A value.  The entries of a map are in the order in which their keys were first inserted, each
key once. -/
inductive Value where
  | null
  | bool (value : Bool)
  | int (value : Int64)
  | float (value : Binary64)
  | string (text : String)
  | enum (constant : EnumConstant)
  | list (items : List Value)
  | set (items : List Value)
  | array (items : List Value)
  | map (entries : List (MapKey × Value))
  | bean (ref : BeanRef)
  deriving Inhabited, Repr

/-- Puts an entry into a map: a new key goes to the end, a known one keeps its place. -/
def insertEntry {κ α : Type} [BEq κ] (key : κ) (value : α) : List (κ × α) → List (κ × α)
  | [] => [(key, value)]
  | (k, v) :: rest => if k == key then (k, value) :: rest else (k, v) :: insertEntry key value rest

/-- Inserting an entry changes what is found under its key, and nothing else. -/
theorem lookup_insertEntry {κ α : Type} [BEq κ] [LawfulBEq κ] (key other : κ) (value : α)
    (entries : List (κ × α)) :
    (insertEntry key value entries).lookup other
      = if other == key then some value else entries.lookup other := by
  induction entries with
  | nil =>
    cases here : other == key <;> simp [insertEntry, List.lookup_cons, here]
  | cons entry rest ih =>
    obtain ⟨first, known⟩ := entry
    unfold insertEntry
    cases same : first == key with
    | true =>
      obtain rfl := eq_of_beq same
      cases here : other == first <;> simp [List.lookup_cons, here]
    | false =>
      rw [if_neg Bool.false_ne_true, List.lookup_cons, List.lookup_cons, ih]
      cases here : other == first with
      | true =>
        obtain rfl := eq_of_beq here
        simp [same]
      | false => rfl

/-- The map that results from inserting entries in order. -/
def entriesOf {κ α : Type} [BEq κ] (pairs : List (κ × α)) : List (κ × α) :=
  pairs.foldl (fun entries pair => insertEntry pair.1 pair.2 entries) []

/-- What is found under a key, an initial value under one that is not there. -/
def entryAt {κ α : Type} [BEq κ] (initial : α) (entries : List (κ × α)) (key : κ) : α :=
  (entries.lookup key).getD initial

/-- Changes what is found under a key; one that is not there goes to the end. -/
def changeEntry {κ α : Type} [BEq κ] (key : κ) (initial : α) (change : α → α)
    (entries : List (κ × α)) : List (κ × α) :=
  insertEntry key (change (entryAt initial entries key)) entries

/-- Changing an entry changes what is found under its key, and nothing else. -/
theorem entryAt_changeEntry {κ α : Type} [BEq κ] [LawfulBEq κ] (key other : κ) (initial : α)
    (change : α → α) (entries : List (κ × α)) :
    entryAt initial (changeEntry key initial change entries) other
      = if other == key then change (entryAt initial entries other)
        else entryAt initial entries other := by
  unfold changeEntry
  rw [entryAt, lookup_insertEntry]
  split
  · next same => rw [eq_of_beq same, Option.getD_some]
  · rfl

namespace Value

/-- The map that results from inserting entries in order. -/
def ofPairs (pairs : List (MapKey × Value)) : Value := map (entriesOf pairs)

def isNull : Value → Bool
  | null => true
  | _ => false

/-- The reference, of a bean. -/
def bean? : Value → Option BeanRef
  | bean ref => some ref
  | _ => none

def string? : Value → Option String
  | string text => some text
  | _ => none

def int? : Value → Option Int64
  | int value => some value
  | _ => none

/-- A number as a binary64; an integer is rounded. -/
def float? : Value → Option Binary64
  | int value => some (Binary64.ofInt value.toInt)
  | float value => some value
  | _ => none

def bool? : Value → Option Bool
  | bool value => some value
  | _ => none

/-- The number of code points, elements or entries. -/
def size? : Value → Option Nat
  | string text => some text.length
  | list items => some items.length
  | set items => some items.length
  | array items => some items.length
  | map entries => some entries.length
  | _ => none

/-- Whether there are no characters, elements or entries. -/
def isEmpty? (value : Value) : Option Bool := value.size?.map (· == 0)

/-- The type of a value on its own; null has that of every value. -/
def runtimeType : Value → TypeKey
  | null => .object
  | bool _ => .boolean
  | int _ => .integer
  | float _ => .double
  | string _ => .string
  | enum constant => constant.enumType
  | list _ => .list
  | set _ => .set
  | array _ => .array
  | map _ => .map
  | bean ref => ref.type

mutual

/-- Equality of values. -/
def equal : Value → Value → Bool
  | null, null => true
  | bool a, bool b => a == b
  | int a, int b => a == b
  | float a, float b => a.equal b
  | string a, string b => a == b
  | enum a, enum b => a == b
  | list as, list bs => equalItems as bs
  | set as, set bs => equalItems as bs
  | array as, array bs => equalItems as bs
  | map as, map bs => as.length == bs.length && entriesIn as bs
  | bean a, bean b => a.same b
  | _, _ => false

/-- Equality of elements in order. -/
def equalItems : List Value → List Value → Bool
  | [], [] => true
  | a :: as, b :: bs => equal a b && equalItems as bs
  | _, _ => false

/-- Whether each entry has an equal one of the same key among some others. -/
def entriesIn : List (MapKey × Value) → List (MapKey × Value) → Bool
  | [], _ => true
  | (key, a) :: rest, others =>
    (match others.lookup key with
      | some b => equal a b
      | none => false)
    && entriesIn rest others

end

end Value

end GraphValidation
