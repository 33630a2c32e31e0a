/-
**The type hierarchy.**

A description of a type names its superclass and the interfaces that it lists.  A type system
registers descriptions in order, and a type is accepted only when its parents are registered before
it.  So the edges from types to parents never form a cycle, and what climbs the hierarchy ends.

* `TypeInfo` — one description.
* `TypeSystem.register` — adds a description, or says what is wrong with it.
* `TypeSystem.supertypes` — everything above a type, nearest first.
* `TypeSystem.isAssignable` — whether a value of one type may stand where another one is declared.
* `TypeSystem.classChain`, `TypeSystem.interfacesOf` — the two directions in which metadata is
  inherited, most general first.
-/
import GraphValidation.ConfigError

namespace GraphValidation

/-- What a type is. -/
inductive TypeKind where
  | classType
  | abstractClass
  | interface
  | enum (constants : List String)
  deriving DecidableEq, Repr

/-- The name of a kind. -/
def TypeKind.name : TypeKind → String
  | classType => "class"
  | abstractClass => "abstract"
  | interface => "interface"
  | enum _ => "enum"

/-- The description of a type. -/
structure TypeInfo where
  key : TypeKey
  kind : TypeKind
  superclass : Option TypeKey
  interfaces : List TypeKey
  deriving DecidableEq, Repr

namespace TypeInfo

/-- A class below `Object`. -/
def ofClass (key : TypeKey) (interfaces : List TypeKey) : TypeInfo :=
  ⟨key, .classType, some .object, interfaces⟩

/-- An interface. -/
def ofInterface (key : TypeKey) (interfaces : List TypeKey) : TypeInfo :=
  ⟨key, .interface, none, interfaces⟩

/-- The superclass and then the interfaces. -/
def parents (info : TypeInfo) : List TypeKey := info.superclass.toList ++ info.interfaces

def isInterface (info : TypeInfo) : Bool := info.kind == .interface

/-- Interfaces and abstract classes, which have no instances of their own. -/
def isAbstract (info : TypeInfo) : Bool := info.kind == .interface || info.kind == .abstractClass

/-- The constants of an enum. -/
def constants? (info : TypeInfo) : Option (List String) :=
  match info.kind with
  | .enum constants => some constants
  | _ => none

def isEnum (info : TypeInfo) : Bool := info.constants?.isSome

end TypeInfo

/-- The description of a type among some. -/
def findInfo? (infos : List TypeInfo) (key : TypeKey) : Option TypeInfo :=
  infos.find? fun info => info.key == key

/-- Each type, the latest first, is described once and after its parents. -/
def ParentsFirst : List TypeInfo → Prop
  | [] => True
  | info :: older =>
    findInfo? older info.key = none ∧ (∀ parent ∈ info.parents, (findInfo? older parent).isSome)
      ∧ ParentsFirst older

/-- The registered types, the latest first. -/
structure TypeSystem where
  infos : List TypeInfo
  parentsFirst : ParentsFirst infos

namespace TypeSystem

/-- The description of a registered type. -/
def get? (types : TypeSystem) (key : TypeKey) : Option TypeInfo := findInfo? types.infos key

/-- Whether a type is registered. -/
def contains (types : TypeSystem) (key : TypeKey) : Bool := (types.get? key).isSome

/-- The description of a type that has to be registered. -/
def require (types : TypeSystem) (key : TypeKey) : Except ConfigError TypeInfo :=
  match types.get? key with
  | some info => .ok info
  | none => .error (.unknownType key)

/-- Adds a type whose name is new and whose parents are all registered. -/
def register (types : TypeSystem) (info : TypeInfo) : Except ConfigError TypeSystem :=
  if fresh : findInfo? types.infos info.key = none then
    match missing : info.parents.find? fun parent => (findInfo? types.infos parent).isNone with
    | some parent => .error (.unknownType parent)
    | none => .ok ⟨info :: types.infos, fresh, by
        intro parent member
        have found := List.find?_eq_none.1 missing parent member
        simpa [Option.isSome_iff_ne_none] using found, types.parentsFirst⟩
  else .error (.duplicateType info.key)

/-- Adds types in order up to the first that is refused: the types that were added, and the
refusal. -/
def registerAll (types : TypeSystem) : List TypeInfo → TypeSystem × Option ConfigError
  | [] => (types, none)
  | info :: rest => match types.register info with
    | .ok types => registerAll types rest
    | .error error => (types, some error)

/-! ### Built-in types -/

/-- The types that every system starts with, the latest first. -/
def builtinInfos : List TypeInfo :=
  [.ofInterface .defaultGroup [],
   .ofClass .array [],
   .ofInterface .map [],
   .ofInterface .set [.collection],
   .ofInterface .list [.collection],
   .ofInterface .collection [.iterable],
   .ofInterface .iterable [],
   ⟨.enum, .abstractClass, some .object, [.comparable]⟩,
   .ofClass .boolean [.comparable],
   ⟨.double, .classType, some .number, [.comparable]⟩,
   ⟨.integer, .classType, some .number, [.comparable]⟩,
   ⟨.number, .abstractClass, some .object, []⟩,
   .ofClass .string [.charSequence, .comparable],
   .ofInterface .charSequence [],
   .ofInterface .comparable [],
   ⟨.object, .classType, none, []⟩]

/-- The system with the built-in types alone. -/
def builtin : TypeSystem where
  infos := builtinInfos
  parentsFirst := by
    simp only [builtinInfos, ParentsFirst]
    decide

instance : Inhabited TypeSystem := ⟨builtin⟩

/-! ### Climbing -/

/-- The parents of a type, none for one that is not registered. -/
def parents (types : TypeSystem) (key : TypeKey) : List TypeKey :=
  match types.get? key with
  | some info => info.parents
  | none => []

/-- Adds the names of a list that are not among some others, each once. -/
def appendNew {α : Type} [BEq α] (out : List α) : List α → List α
  | [] => out
  | a :: rest => if out.contains a then appendNew out rest else appendNew (out ++ [a]) rest

/-- Takes types off the front of a queue and adds their parents that are new to its end and to the
answer. -/
def climb (types : TypeSystem) : Nat → List TypeKey → List TypeKey → List TypeKey
  | 0, _, out => out
  | _, [], out => out
  | fuel + 1, key :: queue, out =>
    let grown := appendNew out (types.parents key)
    climb types fuel (queue ++ grown.drop out.length) grown

/-- All types above a type, each once and the nearest first.  A type enters the queue at most once,
so there are no more steps than registered types and the start. -/
def supertypes (types : TypeSystem) (key : TypeKey) : List TypeKey :=
  climb types (types.infos.length + 1) [key] []

/-- Whether a value of the type `source` may stand where `target` is declared. -/
def isAssignable (types : TypeSystem) (target source : TypeKey) : Bool :=
  target == source || target == .object || (types.supertypes source).contains target

/-- The superclasses of a type among descriptions with the latest first, and the type itself, most
general first. -/
def chainAmong (key : TypeKey) : List TypeInfo → List TypeKey
  | [] => [key]
  | info :: older =>
    if info.key = key then
      match info.superclass with
      | some superclass => chainAmong superclass older ++ [key]
      | none => [key]
    else chainAmong key older

/-- The superclasses of a type and the type itself, most general first. -/
def classChain (types : TypeSystem) (key : TypeKey) : List TypeKey := chainAmong key types.infos

/-- Adds an interface after all of its own super-interfaces, unless it is there already. -/
def collectInterface (iface : TypeKey) : List TypeInfo → List TypeKey → List TypeKey
  | [], out => if out.contains iface then out else out ++ [iface]
  | info :: older, out =>
    if info.key = iface then
      if out.contains iface then out
      else
        let out := info.interfaces.foldl (fun out parent => collectInterface parent older out) out
        if out.contains iface then out else out ++ [iface]
    else collectInterface iface older out

/-- The interfaces of a type, each after its own super-interfaces. -/
def interfacesOf (types : TypeSystem) (key : TypeKey) : List TypeKey :=
  match types.get? key with
  | some info =>
    info.interfaces.foldl (fun out iface => collectInterface iface types.infos out) []
  | none => []

/-- Whether a type is a registered enum. -/
def isEnum (types : TypeSystem) (key : TypeKey) : Bool :=
  match types.get? key with
  | some info => info.isEnum
  | none => false

/-- Whether a type is a registered interface. -/
def isInterface (types : TypeSystem) (key : TypeKey) : Bool :=
  match types.get? key with
  | some info => info.isInterface
  | none => false

end TypeSystem

end GraphValidation
