/-
**Equality is transitive.**

Values, attributes, descriptors and violations are compared part by part.  NaN is unequal to itself,
so their equality is not reflexive, and maps are searched from one side only; but two equalities
always join to one.

* `Value.equal_trans`, `Attributes.equal_trans`, `ConstraintDescriptor.equal_trans` — the parts.
* `Violation.equal_trans` — **equality of violations is transitive**.
* `Violation.key_eq_of_equal` — equal violations have one key.
-/
import GraphValidation.Results

namespace GraphValidation

/-! ### Values -/

namespace Value

/-- What is found in a map has an equal partner in each map that holds all its entries. -/
theorem exists_of_entriesIn {entries others : List (MapKey × Value)} {key : MapKey} {a : Value}
    (inside : entriesIn entries others) (found : entries.lookup key = some a) :
    ∃ b, others.lookup key = some b ∧ a.equal b := by
  induction entries with
  | nil => cases found
  | cons entry rest ih =>
    obtain ⟨own, value⟩ := entry
    simp only [entriesIn, Bool.and_eq_true] at inside
    rw [List.lookup_cons] at found
    cases here : key == own with
    | true =>
      obtain rfl := eq_of_beq here
      rw [here] at found
      cases found
      have partner := inside.1
      split at partner
      · next b onward => exact ⟨b, onward, partner⟩
      · cases partner
    | false =>
      rw [here] at found
      exact ih inside.2 found

mutual

theorem equal_trans : ∀ {a b c : Value}, a.equal b → b.equal c → a.equal c
  | null, b, c, first, second => by
    cases b <;> try cases first
    exact second
  | bool a, b, c, first, second => by
    cases b <;> try cases first
    obtain rfl := eq_of_beq first
    exact second
  | int a, b, c, first, second => by
    cases b <;> try cases first
    obtain rfl := eq_of_beq first
    exact second
  | float a, b, c, first, second => by
    cases b <;> try cases first
    cases c <;> try cases second
    exact Binary64.equal_trans first second
  | string a, b, c, first, second => by
    cases b <;> try cases first
    obtain rfl := eq_of_beq first
    exact second
  | enum a, b, c, first, second => by
    cases b <;> try cases first
    obtain rfl := eq_of_beq first
    exact second
  | list as, b, c, first, second => by
    cases b <;> try cases first
    cases c <;> try cases second
    exact equalItems_trans first second
  | set as, b, c, first, second => by
    cases b <;> try cases first
    cases c <;> try cases second
    exact equalItems_trans first second
  | array as, b, c, first, second => by
    cases b <;> try cases first
    cases c <;> try cases second
    exact equalItems_trans first second
  | map as, b, c, first, second => by
    cases b <;> try cases first
    cases c <;> try cases second
    simp only [equal, Bool.and_eq_true, beq_iff_eq] at first second ⊢
    exact ⟨first.1.trans second.1, entriesIn_trans first.2 second.2⟩
  | bean a, b, c, first, second => by
    cases b <;> try cases first
    cases c <;> try cases second
    simp only [equal, BeanRef.same, beq_iff_eq] at first second ⊢
    exact first.trans second

theorem equalItems_trans : ∀ {as bs cs : List Value},
    equalItems as bs → equalItems bs cs → equalItems as cs
  | [], bs, cs, first, second => by
    cases bs <;> try cases first
    exact second
  | a :: as, bs, cs, first, second => by
    cases bs <;> try cases first
    cases cs <;> try cases second
    simp only [equalItems, Bool.and_eq_true] at first second ⊢
    exact ⟨equal_trans first.1 second.1, equalItems_trans first.2 second.2⟩

/-- An entry is found in the third map because it is found in the second one. -/
theorem entriesIn_trans : ∀ {as bs cs : List (MapKey × Value)},
    entriesIn as bs → entriesIn bs cs → entriesIn as cs
  | [], _, _, _, _ => rfl
  | (key, a) :: as, bs, cs, first, second => by
    simp only [entriesIn, Bool.and_eq_true] at first ⊢
    refine ⟨?_, entriesIn_trans first.2 second⟩
    have here := first.1
    cases found : bs.lookup key with
    | none => simp [found] at here
    | some b =>
      rw [found] at here
      obtain ⟨c, onward, equal⟩ := exists_of_entriesIn second found
      rw [onward]
      exact equal_trans here equal

end

end Value

/-! ### Attributes -/

namespace AttributeValue

mutual

theorem equal_trans : ∀ {a b c : AttributeValue}, a.equal b → b.equal c → a.equal c
  | bool a, b, c, first, second => by
    cases b <;> try cases first
    obtain rfl := eq_of_beq first
    exact second
  | int a, b, c, first, second => by
    cases b <;> try cases first
    obtain rfl := eq_of_beq first
    exact second
  | float a, b, c, first, second => by
    cases b <;> try cases first
    cases c <;> try cases second
    exact Binary64.equal_trans first second
  | string a, b, c, first, second => by
    cases b <;> try cases first
    obtain rfl := eq_of_beq first
    exact second
  | list as, b, c, first, second => by
    cases b <;> try cases first
    cases c <;> try cases second
    exact equalItems_trans first second

theorem equalItems_trans : ∀ {as bs cs : List AttributeValue},
    equalItems as bs → equalItems bs cs → equalItems as cs
  | [], bs, cs, first, second => by
    cases bs <;> try cases first
    exact second
  | a :: as, bs, cs, first, second => by
    cases bs <;> try cases first
    cases cs <;> try cases second
    simp only [equalItems, Bool.and_eq_true] at first second ⊢
    exact ⟨equal_trans first.1 second.1, equalItems_trans first.2 second.2⟩

end

end AttributeValue

/-- Attributes are equal if they are as many, and each has an equal one of its name. -/
theorem Attributes.equal_iff {a b : Attributes} : a.equal b
    ↔ a.entries.length = b.entries.length
      ∧ ∀ entry ∈ a.entries, ∃ value, b.get? entry.1 = some value ∧ entry.2.equal value := by
  simp only [Attributes.equal, Bool.and_eq_true, beq_iff_eq, List.all_eq_true]
  refine and_congr_right fun _ => forall₂_congr fun entry _ => ?_
  cases b.get? entry.1 <;> simp

theorem Attributes.equal_trans {a b c : Attributes} (first : a.equal b) (second : b.equal c) :
    a.equal c := by
  rw [equal_iff] at first second ⊢
  refine ⟨first.1.trans second.1, fun entry member => ?_⟩
  obtain ⟨middle, found, here⟩ := first.2 entry member
  obtain ⟨before, after, split, -⟩ := List.lookup_eq_some_iff.mp found
  obtain ⟨last, onward, there⟩ := second.2 (entry.1, middle) (by simp [split])
  exact ⟨last, onward, AttributeValue.equal_trans here there⟩

/-! ### Descriptors -/

namespace ConstraintDescriptor

mutual

theorem equal_trans : ∀ {a b c : ConstraintDescriptor}, a.equal b → b.equal c → a.equal c
  | mk _ _ _ _ _ _ _, mk _ _ _ _ _ _ _, mk _ _ _ _ _ _ _, first, second => by
    simp only [equal, Bool.and_eq_true, beq_iff_eq, and_assoc] at first second ⊢
    obtain ⟨constraint, attributes, groups, payload, template, single, composing⟩ := first
    obtain ⟨constraint', attributes', groups', payload', template', single', composing'⟩ := second
    exact ⟨constraint.trans constraint', Attributes.equal_trans attributes attributes',
      groups.trans groups', payload.trans payload', template.trans template',
      single.trans single', equalAll_trans composing composing'⟩

theorem equalAll_trans : ∀ {as bs cs : List ConstraintDescriptor},
    equalAll as bs → equalAll bs cs → equalAll as cs
  | [], bs, cs, first, second => by
    cases bs <;> try cases first
    exact second
  | a :: as, bs, cs, first, second => by
    cases bs <;> try cases first
    cases cs <;> try cases second
    simp only [equalAll, Bool.and_eq_true] at first second ⊢
    exact ⟨equal_trans first.1 second.1, equalAll_trans first.2 second.2⟩

end

end ConstraintDescriptor

/-! ### Violations -/

namespace Violation

variable {a b c : Violation}

theorem equalConstraint_trans {a b c : Option ConstraintDescriptor}
    (first : equalConstraint a b) (second : equalConstraint b c) : equalConstraint a c := by
  cases a with
  | none =>
    cases b <;> try cases first
    exact second
  | some a =>
    cases b <;> try cases first
    cases c <;> try cases second
    exact ConstraintDescriptor.equal_trans first second

theorem equal_iff : a.equal b
    ↔ a.message = b.message ∧ a.template = b.template ∧ a.rootType = b.rootType
      ∧ a.owner? = b.owner? ∧ a.property = b.property ∧ a.path = b.path
      ∧ a.invalid.equal b.invalid ∧ equalConstraint a.constraint b.constraint := by
  simp only [equal, Bool.and_eq_true, beq_iff_eq, and_assoc]

/-- **Equality of violations is transitive.** -/
theorem equal_trans (first : a.equal b) (second : b.equal c) : a.equal c := by
  rw [equal_iff] at first second ⊢
  obtain ⟨message, template, rootType, owner, property, path, invalid, constraint⟩ := first
  obtain ⟨message', template', rootType', owner', property', path', invalid', constraint'⟩ := second
  exact ⟨message.trans message', template.trans template', rootType.trans rootType',
    owner.trans owner', property.trans property', path.trans path',
    Value.equal_trans invalid invalid', equalConstraint_trans constraint constraint'⟩

/-- **Equal violations have one key**, so none is overlooked among those with its key. -/
theorem key_eq_of_equal (same : a.equal b) : a.key = b.key := by
  obtain ⟨message, template, -, owner, property, path, -, -⟩ := equal_iff.mp same
  simp only [key, message, template, owner, property, path]

end Violation

end GraphValidation
