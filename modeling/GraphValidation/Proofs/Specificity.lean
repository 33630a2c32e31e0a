/-
**More specific types.**

A type is more specific than another one if it may stand where the other one is declared.  Where
nothing is above `Object` this is an order, so among finitely many types each is above one that is
refined by no other one, and at most one is more specific than all others.

* `TypeSystem.Refines` — a type is strictly more specific than another one.
* `TypeSystem.exists_unrefined` — **below each of some types is one that none of them refines**.
* `TypeSystem.MostSpecific` — one of some types that is more specific than all others.
-/
import Mathlib.Order.Preorder.Finite
import GraphValidation.Proofs.Registration

namespace GraphValidation

namespace TypeSystem

variable {types : TypeSystem} {key other : TypeKey} {keys : List TypeKey}

/-- A type is strictly more specific than another one. -/
def Refines (types : TypeSystem) (lower upper : TypeKey) : Prop :=
  lower ≠ upper ∧ types.isAssignable upper lower

instance (types : TypeSystem) (lower upper : TypeKey) : Decidable (types.Refines lower upper) :=
  inferInstanceAs (Decidable (_ ∧ _))

/-- A type is more specific than all types of a list, and is one of them. -/
structure MostSpecific (types : TypeSystem) (keys : List TypeKey) (key : TypeKey) : Prop where
  mem : key ∈ keys
  below : ∀ other ∈ keys, types.isAssignable other key

section Order

variable (summit : types.parents .object = [])

include summit

/-- The order of types by what they may stand for. -/
@[reducible]
def bySpecificity : PartialOrder TypeKey where
  le lower upper := types.isAssignable upper lower
  le_refl _ := isAssignable_iff.mpr (.inl rfl)
  le_trans _ _ _ below onward := isAssignable_trans summit onward below
  le_antisymm _ _ below above := isAssignable_antisymm summit above below

/-- **Below each of some types is one that none of them refines.** -/
theorem exists_unrefined (member : key ∈ keys) : ∃ finest ∈ keys,
    types.isAssignable key finest ∧ ∀ other ∈ keys, ¬ types.Refines other finest := by
  let _ := bySpecificity summit
  obtain ⟨finest, below, minimal⟩ := keys.finite_toSet.exists_le_minimal member
  refine ⟨finest, minimal.prop, below, fun other inside refines => ?_⟩
  exact refines.1 (minimal.eq_of_le inside refines.2)

/-- Two types do not refine each other. -/
theorem Refines.asymm (refines : types.Refines key other) : ¬ types.Refines other key :=
  fun back => refines.1 (isAssignable_antisymm summit back.2 refines.2)

/-- There is at most one most specific type. -/
theorem MostSpecific.unique (first : types.MostSpecific keys key)
    (second : types.MostSpecific keys other) : key = other :=
  isAssignable_antisymm summit (second.below key first.mem) (first.below other second.mem)

end Order

end TypeSystem

end GraphValidation
