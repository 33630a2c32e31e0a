/-
**Access to members.**

An access reads one member of a value: a field, an accessor, a position of a container or an entry
of a map.  Accesses are equal when they address one member with one declared type.

* `Access.read` — what an access reads from a value, or why it cannot.
* `Access.kind` — what kind of element it addresses.
-/
import GraphValidation.Value.Heap
import GraphValidation.Type.Ref

namespace GraphValidation

/-- What a constraint or a question of reachability is about. -/
inductive ElementKind where
  | type
  | field
  | method
  | parameter
  | containerElement
  deriving DecidableEq, Repr

/-- The name of a kind of element. -/
def ElementKind.name : ElementKind → String
  | type => "type"
  | field => "field"
  | method => "method"
  | parameter => "parameter"
  | containerElement => "container"

/-- A way to a member. -/
inductive Access where
  | field (name : String) (declared : TypeRef)
  | getter (property : String) (declared : TypeRef)
  | position (index : Nat)
  /-- A map entry; a text names a constant of the enum type, where one is given. -/
  | entry (key : MapKey) (enumKeys : Option TypeKey)
  | parameter (index : Nat) (name : String) (declared : TypeRef)
  deriving DecidableEq, Repr

/-- Why a member cannot be read. -/
inductive AccessError where
  | missingMember (type : TypeKey) (member : String)
  | unsupported (access : Access)
  | wrongShape (access : Access) (found : TypeKey)
  deriving DecidableEq, Repr

namespace Access

/-- The name of the member in messages. -/
def text : Access → String
  | field name _ => "field '" ++ name ++ "'"
  | getter property _ => "accessor '" ++ property ++ "'"
  | position index => "index [" ++ toString index ++ "]"
  | entry key _ => "key [" ++ key.text ++ "]"
  | parameter index name _ => "constructor parameter " ++ toString index ++ " '" ++ name ++ "'"

def kind : Access → ElementKind
  | field .. => .field
  | getter .. => .method
  | position .. => .containerElement
  | entry .. => .containerElement
  | parameter .. => .parameter

/-- The declared type of the member. -/
def declared : Access → TypeRef
  | field _ declared => declared
  | getter _ declared => declared
  | parameter _ _ declared => declared
  | position _ => .object
  | entry _ _ => .object

/-- The name of the property, where the member is one. -/
def property? : Access → Option String
  | field name _ => some name
  | getter property _ => some property
  | parameter _ name _ => some name
  | position _ => none
  | entry _ _ => none

/-- The value under a key: where keys are constants of an enum, the constant that a text names; else
the entry of the key, or the first one whose key has the same text. -/
def lookupEntry (entries : List (MapKey × Value)) (key : MapKey) (enumKeys : Option TypeKey) :
    Option Value :=
  match key, enumKeys with
  | .string name, some enumType =>
    (entries.find? fun entry => match entry.1 with
      | .enum constant => constant.enumType == enumType && constant.constant == name
      | _ => false).map (·.2)
  | key, _ => match entries.lookup key with
    | some value => some value
    | none => (entries.find? fun entry => entry.1.text == key.text).map (·.2)

/-- What an access to a property reads: a member of a bean, or an entry of a map. -/
def readProperty (access : Access) (name : String) (member : BeanRef → Option Value)
    (holder : Value) : Except AccessError Value :=
  match holder with
  | .bean bean => match member bean with
    | some value => .ok value
    | none => .error (.missingMember bean.type name)
  | .map entries => .ok ((entries.lookup (.string name)).getD .null)
  | other => .error (.wrongShape access other.runtimeType)

/-- What a position of some elements holds, null beyond the end. -/
def readPosition (index : Nat) (items : List Value) : Value := items[index]?.getD .null

/-- What an access reads from a value. -/
def read (heap : Heap) (access : Access) (holder : Value) : Except AccessError Value :=
  match access with
  | field name _ => access.readProperty name (heap.field? · name) holder
  | getter property _ => access.readProperty property (heap.getter? · property) holder
  | position index => match holder with
    | .list items => .ok (readPosition index items)
    | .array items => .ok (readPosition index items)
    | .set items => .ok (readPosition index items)
    | other => .error (.wrongShape access other.runtimeType)
  | entry key enumKeys => match holder with
    | .map entries => .ok ((lookupEntry entries key enumKeys).getD .null)
    | other => .error (.wrongShape access other.runtimeType)
  | parameter .. => .error (.unsupported access)

end Access

/-- The text of an access error. -/
def AccessError.message : AccessError → String
  | missingMember type member => "'" ++ type.name ++ "' has no member '" ++ member ++ "'"
  | unsupported access => access.text ++ " does not support reading values"
  | wrongShape access found =>
    "cannot read " ++ access.text ++ " from a value of type '" ++ found.name ++ "'"

end GraphValidation
