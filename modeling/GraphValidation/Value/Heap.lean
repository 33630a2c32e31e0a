/-
**The members of beans.**

A heap holds the fields of each bean and the members whose reader computes something of its own.
Reading changes nothing, so two reads of one member agree.

* `Heap.field?` — a field of a bean.
* `Heap.getter?` — what the accessor of a property reads: an overriding member, else the field.
* `Heap.set` — the heap after one field of a bean was written.
-/
import GraphValidation.Value.Document
import GraphValidation.Text.Escaped

namespace GraphValidation

/-- The members of one bean. -/
structure BeanMembers where
  ref : BeanRef
  /-- The fields, in the order in which they were first written. -/
  fields : List (String × Value)
  /-- The accessors that do not read the field of their property. -/
  getters : List (String × Value)
  /-- Whether the bean can tell the names of its fields. -/
  listsFields : Bool

/-- The members of all beans. -/
structure Heap where
  beans : List BeanMembers

namespace Heap

instance : Inhabited Heap := ⟨⟨[]⟩⟩

/-- The members of a bean. -/
def members? (heap : Heap) (bean : BeanRef) : Option BeanMembers :=
  heap.beans.find? fun members => members.ref.same bean

/-- A field of a bean. -/
def field? (heap : Heap) (bean : BeanRef) (name : String) : Option Value :=
  (heap.members? bean).bind fun members => members.fields.lookup name

/-- What the accessor of a property reads. -/
def getter? (heap : Heap) (bean : BeanRef) (property : String) : Option Value :=
  (heap.members? bean).bind fun members =>
    (members.getters.lookup property).or (members.fields.lookup property)

/-- The heap after a field was written. -/
def set (heap : Heap) (bean : BeanRef) (name : String) (value : Value) : Heap :=
  ⟨heap.beans.map fun members =>
    if members.ref.same bean then { members with fields := insertEntry name value members.fields }
    else members⟩

end Heap

/-- The type and the names of the fields of a bean. -/
def BeanMembers.describe (members : BeanMembers) : String :=
  "DynBean \x7b type: " ++ members.ref.type.name ++ ", fields: "
    ++ Text.quoteNames (members.fields.map (·.1)) ++ " \x7d"

end GraphValidation
