/-
**The hierarchy of registered types.**

A type system starts with the built-in types and grows by calls that register types.  A type that is
refused changes nothing, and what is known of a type stays known; so nothing ever comes above
`Object` and above the default group.  That no type is above itself comes with the system.

* `Registration`, `TypeSystem.registered` — calls that register types, and the system after them.
* `TypeSystem.get?_registered` — the built-in types stay as they are.
* `TypeSystem.isAssignable_iff` — assignability goes upward from a type, or to `Object`.
* `TypeSystem.Hierarchical` — what the directions of a hierarchy have to do with each other.
* `TypeSystem.registered_hierarchical` — **the types of a system form a hierarchy, whatever has been
  registered**.
-/
import Mathlib.Data.List.Chain
import GraphValidation.Proofs.Hierarchy
import GraphValidation.Proofs.NearestFirst

namespace GraphValidation

/-! ### Calls that register types -/

/-- A call that registers a type, or several in order. -/
inductive Registration where
  | one (info : TypeInfo)
  | all (infos : List TypeInfo)

/-- The types after a call.  A call that fails leaves what it has added before. -/
def Registration.run (types : TypeSystem) : Registration → TypeSystem
  | one info => match types.register info with
    | .ok later => later
    | .error _ => types
  | all infos => (types.registerAll infos).1

namespace TypeSystem

/-- The types after some calls. -/
def registered (calls : List Registration) : TypeSystem := calls.foldl Registration.run .builtin

variable {types later : TypeSystem} {info known : TypeInfo} {key upper lower : TypeKey}

/-- A type that is accepted is new, and is added to the others. -/
theorem register_eq_ok (accepted : types.register info = .ok later) :
    types.get? info.key = none ∧ later.infos = info :: types.infos := by
  unfold register at accepted
  split at accepted
  · rename_i fresh
    split at accepted
    · cases accepted
    · cases accepted
      exact ⟨fresh, rfl⟩
  · cases accepted

theorem get?_register (accepted : types.register info = .ok later)
    (found : types.get? key = some known) : later.get? key = some known := by
  obtain ⟨fresh, grown⟩ := register_eq_ok accepted
  have other : info.key ≠ key := by
    rintro rfl
    rw [fresh] at found
    cases found
  rw [get?, grown, findInfo?_cons, if_neg other]
  exact found

theorem get?_registerAll (infos : List TypeInfo) (found : types.get? key = some known) :
    (types.registerAll infos).1.get? key = some known := by
  induction infos generalizing types with
  | nil => exact found
  | cons info rest ih =>
    unfold registerAll
    split
    · rename_i accepted
      exact ih (get?_register accepted found)
    · exact found

/-- A call leaves what is known of a type. -/
theorem get?_run (call : Registration) (found : types.get? key = some known) :
    (call.run types).get? key = some known := by
  cases call with
  | one info =>
    cases answer : types.register info with
    | ok later =>
      simp only [Registration.run, answer]
      exact get?_register answer found
    | error error =>
      simp only [Registration.run, answer]
      exact found
  | all infos => exact get?_registerAll infos found

/-- **The built-in types stay as they are**, whatever is registered. -/
theorem get?_registered (calls : List Registration) (found : builtin.get? key = some known) :
    (registered calls).get? key = some known := by
  unfold registered
  generalize builtin = types at found ⊢
  induction calls generalizing types with
  | nil => exact found
  | cons call rest ih => exact ih _ (get?_run call found)

theorem parents_object_registered (calls : List Registration) :
    (registered calls).parents .object = [] := by
  have found : builtin.get? .object = some ⟨.object, .classType, none, []⟩ := rfl
  rw [parents_of_some (get?_registered calls found)]
  rfl

theorem parents_default_registered (calls : List Registration) :
    (registered calls).parents .defaultGroup = [] := by
  have found : builtin.get? .defaultGroup = some (.ofInterface .defaultGroup []) := rfl
  rw [parents_of_some (get?_registered calls found)]
  rfl

/-! ### Assignability -/

/-- A value may stand for a type if its own type is that one or below it, and always for
`Object`. -/
theorem isAssignable_iff : types.isAssignable upper lower
    ↔ upper = lower ∨ upper = .object ∨ types.Inherits lower upper := by
  simp only [isAssignable, Bool.or_eq_true, beq_iff_eq, List.contains_iff_mem, mem_supertypes,
    or_assoc]

/-- Above a type without parents there is nothing. -/
theorem not_inherits_of_parents (none : types.parents key = []) : ¬ types.Inherits key upper := by
  rw [inherits_iff, none]
  rintro ⟨parent, isParent, _⟩
  cases isParent

section Assignability

variable (summit : types.parents .object = [])

include summit

theorem isAssignable_antisymm (upward : types.isAssignable upper lower)
    (downward : types.isAssignable lower upper) : upper = lower := by
  rw [isAssignable_iff] at upward downward
  rcases upward with same | rfl | above
  · exact same
  · rcases downward with same | same | above
    · exact same.symm
    · exact same.symm
    · exact absurd above (not_inherits_of_parents summit)
  · rcases downward with same | rfl | below
    · exact same.symm
    · exact absurd above (not_inherits_of_parents summit)
    · exact absurd (Relation.TransGen.trans above below) (not_inherits_self lower)

theorem isAssignable_trans {middle : TypeKey} (upward : types.isAssignable upper middle)
    (onward : types.isAssignable middle lower) : types.isAssignable upper lower := by
  rw [isAssignable_iff] at upward onward ⊢
  rcases upward with rfl | top | above
  · exact onward
  · exact .inr (.inl top)
  · rcases onward with rfl | rfl | below
    · exact .inr (.inr above)
    · exact absurd above (not_inherits_of_parents summit)
    · exact .inr (.inr (Relation.TransGen.trans below above))

end Assignability

/-! ### Superclasses -/

/-- A type has another one as its superclass. -/
def Extends (types : TypeSystem) (lower upper : TypeKey) : Prop :=
  types.superclass? lower = some upper

/-- A chain of superclasses ends with the type. -/
theorem getLast?_classChain (types : TypeSystem) (key : TypeKey) :
    (types.classChain key).getLast? = some key := by
  rw [classChain_eq, List.getLast?_concat]

/-- Each type of a chain is the superclass of the next one. -/
theorem isChain_classChain (types : TypeSystem) (key : TypeKey) :
    (types.classChain key).IsChain fun upper lower => types.Extends lower upper := by
  induction key using types.parents_induction with
  | step key ih =>
    rw [classChain_eq]
    cases named : types.superclass? key with
    | none => exact .singleton key
    | some superclass =>
      refine List.isChain_append.mpr
        ⟨ih superclass (mem_parents.mpr (.inl named)), .singleton key, ?_⟩
      intro last isLast own isOwn
      rw [Option.elim_some, getLast?_classChain] at isLast
      cases isLast
      cases isOwn
      exact named

/-- A chain starts with a type without a superclass. -/
theorem head?_classChain (types : TypeSystem) (key : TypeKey) :
    ∃ top, (types.classChain key).head? = some top ∧ types.superclass? top = none
      ∧ Relation.ReflTransGen types.Extends key top := by
  induction key using types.parents_induction with
  | step key ih =>
    rw [classChain_eq]
    cases named : types.superclass? key with
    | none => exact ⟨key, rfl, named, .refl⟩
    | some superclass =>
      obtain ⟨top, first, ends, above⟩ := ih superclass (mem_parents.mpr (.inl named))
      refine ⟨top, ?_, ends, .head named above⟩
      rw [Option.elim_some, List.head?_append, first]
      rfl

/-- Where superclasses end, they end for all types on the way. -/
theorem extends_top {top : TypeKey} (ends : types.superclass? top = none)
    (above : Relation.ReflTransGen types.Extends key top)
    (between : Relation.ReflTransGen types.Extends key upper) :
    Relation.ReflTransGen types.Extends upper top := by
  have unique : Relator.RightUnique types.Extends := by
    intro type first second isFirst isSecond
    exact Option.some.inj (Eq.trans (Eq.symm isFirst) isSecond)
  rcases Relation.ReflTransGen.total_of_right_unique unique between above with onward | beyond
  · exact onward
  · rcases beyond.cases_head with rfl | ⟨next, extends_, _⟩
    · exact .refl
    · rw [Extends, ends] at extends_
      cases extends_

/-! ### Hierarchies -/

/-- What holds of a hierarchy of types, for all names, registered or not. -/
structure Hierarchical (types : TypeSystem) : Prop where
  /-- Assignability is an order. -/
  assignable_self : ∀ key, types.isAssignable key key
  assignable_antisymm : ∀ upper lower, types.isAssignable upper lower →
    types.isAssignable lower upper → upper = lower
  assignable_trans : ∀ upper middle lower, types.isAssignable upper middle →
    types.isAssignable middle lower → types.isAssignable upper lower
  /-- The climb to the types above a type comes to its end, and lists what can be reached by
  superclasses and interfaces: all of it, nothing twice, the nearest first, and never the type. -/
  climbs : ∀ key, types.Climbs [key] [] (types.supertypes key)
  above : ∀ key other, other ∈ types.supertypes key
    ↔ Relation.TransGen (fun lower upper => types.Extends lower upper ∨ upper ∈ types.listed lower)
      key other
  once : ∀ key, (types.supertypes key).Nodup
  nearest : ∀ key, (types.supertypes key).Pairwise (types.Nearer key)
  proper : ∀ key, key ∉ types.supertypes key
  /-- A chain of superclasses starts with the most general ancestor, each of its types is the
  superclass of the next one, and it ends with the type. -/
  chain_first : ∀ key, ∃ top, (types.classChain key).head? = some top
    ∧ types.superclass? top = none
    ∧ ∀ upper, Relation.ReflTransGen types.Extends key upper →
      Relation.ReflTransGen types.Extends upper top
  chain_linked : ∀ key, (types.classChain key).IsChain fun upper lower => types.Extends lower upper
  chain_last : ∀ key, (types.classChain key).getLast? = some key
  /-- The interfaces of a type are those that it lists and their super-interfaces, nothing twice,
  and each after all of its own super-interfaces. -/
  interfaces : ∀ key other, other ∈ types.interfacesOf key ↔ types.Implements key other
  interfaces_once : ∀ key, (types.interfacesOf key).Nodup
  interfaces_order : ∀ key before iface after, types.interfacesOf key = before ++ iface :: after →
    ∀ upper, types.Implements iface upper → upper ∈ before

/-- What is above a type is reached by superclasses and interfaces. -/
theorem mem_supertypes_iff : upper ∈ types.supertypes lower
    ↔ Relation.TransGen (fun lower upper => types.Extends lower upper ∨ upper ∈ types.listed lower)
      lower upper := by
  have edges : (fun type parent => parent ∈ types.parents type)
      = fun lower upper => types.Extends lower upper ∨ upper ∈ types.listed lower :=
    funext fun type => funext fun parent => propext mem_parents
  rw [mem_supertypes, Inherits, edges]

/-- **The types of a system form a hierarchy, whatever has been registered**, in calls that have
succeeded and in calls that have failed. -/
theorem registered_hierarchical (calls : List Registration) : (registered calls).Hierarchical where
  assignable_self _ := isAssignable_iff.mpr (.inl rfl)
  assignable_antisymm _ _ := isAssignable_antisymm (parents_object_registered calls)
  assignable_trans _ _ _ := isAssignable_trans (parents_object_registered calls)
  climbs := supertypes_climbs _
  above _ _ := mem_supertypes_iff
  once := nodup_supertypes _
  nearest := supertypes_sorted _
  proper key member := not_inherits_self key (mem_supertypes.mp member)
  chain_first key := by
    obtain ⟨top, first, ends, above⟩ := head?_classChain (registered calls) key
    exact ⟨top, first, ends, fun _ => extends_top ends above⟩
  chain_linked := isChain_classChain _
  chain_last := getLast?_classChain _
  interfaces _ _ := mem_interfacesOf
  interfaces_once key := (interfacesOf_descent _ key).nodup
  interfaces_order key _ _ _ split _ := (interfacesOf_descent _ key).mem_before split

example :
    let base : TypeKey := ⟨"Base"⟩
    let left : TypeKey := ⟨"Left"⟩
    let right : TypeKey := ⟨"Right"⟩
    let both : TypeKey := ⟨"Both"⟩
    let types := registered [.one (.ofInterface left [base]),
      .all [.ofInterface base [], .ofInterface left [base], .ofInterface base [left]],
      .all [.ofInterface right [base], .ofClass both [left, right]]]
    types.interfacesOf both = [base, left, right]
      ∧ types.supertypes both = [.object, left, right, base] := by
  decide +kernel

end TypeSystem

end GraphValidation
