/-
**Groups and group sequences.**

A group is known by its marker, a type.  Where a requested marker is an interface that carries a
sequence of groups, the sequence stands for its members, and those for theirs.

* `GroupRequest.resolve` — the plain groups and the sequences that a request asks for.
* `checkDefaultSequence` — whether a sequence may redefine the default group of a type.
* `isMember` — whether a constraint belongs to a group.
-/
import GraphValidation.Type.System

namespace GraphValidation

/-- What a request asks for: groups to be validated independently, and sequences that stop at the
first group with a violation. -/
structure Groups where
  plain : List TypeKey
  sequences : List (List TypeKey)
  deriving DecidableEq, Repr

/-- The default group alone. -/
def Groups.defaultOnly : Groups := ⟨[.defaultGroup], []⟩

/-- Where the sequences of groups come from. -/
abbrev SequenceSource := TypeKey → Except ConfigError (Option (List TypeKey))

/-- A list with one more element at its end, unless it is there already. -/
def addOnce {α : Type} [BEq α] (items : List α) (item : α) : List α :=
  if items.contains item then items else items ++ [item]

namespace GroupRequest

/-- The sequence that a group carries.  Only interfaces carry one. -/
def sequenceOf (types : TypeSystem) (source : SequenceSource) (group : TypeKey) :
    Except ConfigError (Option (List TypeKey)) :=
  if types.isInterface group then source group else .ok none

/-- Adds the expansions of members, in order, each group once. -/
def expandMembers (types : TypeSystem) (expand : TypeKey → Except ConfigError (List TypeKey)) :
    List TypeKey → List TypeKey → Except ConfigError (List TypeKey)
  | [], out => .ok out
  | member :: rest, out => do
    let _ ← types.require member
    let groups ← expand member
    expandMembers types expand rest (groups.foldl addOnce out)

/-- The groups that a group stands for, below the groups of a stack.  The stack holds different
registered groups, so it is never longer than the type system; `fuel` is what is left of that. -/
def expand (types : TypeSystem) (source : SequenceSource) :
    Nat → List TypeKey → TypeKey → Except ConfigError (List TypeKey)
  | fuel, stack, group => do
    if stack.contains group then .error (.cyclicGroupSequence group)
    else match ← sequenceOf types source group with
      | none => .ok [group]
      | some members => match fuel with
        | 0 => .error (.cyclicGroupSequence group)
        | fuel + 1 => expandMembers types (expand types source fuel (group :: stack)) members []

/-- Adds what requested groups ask for, in order. -/
def resolveFrom (types : TypeSystem) (source : SequenceSource) (groups : Groups) :
    List TypeKey → Except ConfigError Groups
  | [] => .ok groups
  | group :: rest =>
    if group = .defaultGroup then
      resolveFrom types source { groups with plain := addOnce groups.plain group } rest
    else do
      let _ ← types.require group
      match ← sequenceOf types source group with
      | some _ => do
        let sequence ← expand types source (types.infos.length + 1) [] group
        resolveFrom types source { groups with sequences := addOnce groups.sequences sequence } rest
      | none => resolveFrom types source { groups with plain := addOnce groups.plain group } rest

/-- What a request asks for; an empty one asks for the default group. -/
def resolve (types : TypeSystem) (source : SequenceSource) (requested : List TypeKey) :
    Except ConfigError Groups :=
  if requested.isEmpty then .ok .defaultOnly else resolveFrom types source ⟨[], []⟩ requested

end GroupRequest

/-- Whether a sequence may redefine the default group of its host: it is not empty, does not name
the default group, and names the host. -/
def checkDefaultSequence (host : TypeKey) (sequence : List TypeKey) :
    Except ConfigError (List TypeKey) :=
  if sequence.isEmpty then .error (.invalidGroupSequence host .empty)
  else if sequence.contains .defaultGroup then
    .error (.invalidGroupSequence host .containsDefault)
  else if !sequence.contains host then .error (.invalidGroupSequence host .missingHostType)
  else .ok sequence

/-- Whether a constraint with some declared groups belongs to a group: it names the group or, other
than by the default group, a supertype of it; or it is in the default group and its owner is a
supertype of the group. -/
def isMember (types : TypeSystem) (declared : List TypeKey) (owner current : TypeKey) : Bool :=
  (declared.any fun group =>
    group == current || (group != .defaultGroup && types.isAssignable group current))
  || (current != .defaultGroup && declared.contains .defaultGroup
    && types.isAssignable owner current)

end GraphValidation
