/-
**Equality is symmetric, and reflexive where there is no NaN.**

Values, attributes, descriptors and violations are compared through all their parts, down to the
numbers.  A NaN differs from itself, so one of them at any depth makes the whole differ from itself;
nothing else does.  Maps and attributes are searched from one side only, but a key is there once and
both sides have as many entries, so the search from the other side meets the same pairs.

* `Value.keyed`, `Violation.keyed` — each key of a map and each name of an attribute is there once.
* `Value.hasNaN`, `Violation.hasNaN` — a NaN is held at some depth.
* `Value.equal_symm`, `Violation.equal_symm` — **equality is symmetric**.
* `Value.equal_self`, `Violation.equal_self` — **what is compared is equal to itself exactly if it
  holds no NaN**.
* `Value.keyed_ofJson` — what is read is keyed.
-/
import Mathlib.Data.List.Induction
import Mathlib.Data.List.Nodup
import Mathlib.Data.List.Perm.Subperm
import GraphValidation.Proofs.Equality

namespace GraphValidation

/-! ### Entries under keys -/

section Entries

variable {κ α : Type} [BEq κ] {entries others : List (κ × α)} {key : κ} {value : α}
  {same : α → α → Bool}

/-- Whether each entry has a partner under its key among some others. -/
def matched (same : α → α → Bool) (entries others : List (κ × α)) : Bool :=
  entries.all fun entry => (others.lookup entry.1).any (same entry.2)

theorem matched_iff : matched same entries others
    ↔ ∀ key value, (key, value) ∈ entries →
        ∃ partner, others.lookup key = some partner ∧ same value partner := by
  simp only [matched, List.all_eq_true, Option.any_eq_true, Prod.forall]

theorem entriesOf_concat (pairs : List (κ × α)) (pair : κ × α) :
    entriesOf (pairs ++ [pair]) = insertEntry pair.1 pair.2 (entriesOf pairs) :=
  List.foldl_append

variable [LawfulBEq κ]

theorem mem_of_lookup (found : entries.lookup key = some value) : (key, value) ∈ entries := by
  obtain ⟨before, after, split, -⟩ := List.lookup_eq_some_iff.mp found
  rw [split]
  exact List.mem_append_right _ List.mem_cons_self

/-- Where each key is there once, an entry is what is found under its key. -/
theorem lookup_of_mem (once : (entries.map (·.1)).Nodup) (member : (key, value) ∈ entries) :
    entries.lookup key = some value := by
  induction entries with
  | nil => cases member
  | cons entry rest ih =>
    obtain ⟨new, once⟩ := List.nodup_cons.mp once
    rcases List.mem_cons.mp member with here | later
    · rw [← here, List.lookup_cons, BEq.rfl]
    · have differs : key ≠ entry.1 := fun isKey => new (List.mem_map.mpr ⟨_, later, isKey⟩)
      rw [List.lookup_cons, beq_eq_false_iff_ne.mpr differs]
      exact ih once later

/-- Entries are their own partners, if they are like themselves. -/
theorem matched_self (once : (entries.map (·.1)).Nodup) :
    matched same entries entries = entries.all fun entry => same entry.2 entry.2 := by
  refine Bool.eq_iff_iff.mpr (matched_iff.trans ?_)
  rw [List.all_eq_true, Prod.forall]
  refine forall₃_congr fun key value member => ?_
  simp only [lookup_of_mem once member, Option.some.injEq, exists_eq_left']

/-- **The partners have partners**, where there are as many of them, and each key once. -/
theorem matched_symm (once : (entries.map (·.1)).Nodup) (onceOthers : (others.map (·.1)).Nodup)
    (asMany : entries.length = others.length)
    (symm : ∀ key value, (key, value) ∈ entries → ∀ partner, (key, partner) ∈ others →
      same value partner → same partner value)
    (found : matched same entries others) : matched same others entries := by
  rw [matched_iff] at found ⊢
  have inside : entries.map (·.1) ⊆ others.map (·.1) := by
    intro key member
    obtain ⟨⟨_, value⟩, held, rfl⟩ := List.mem_map.mp member
    obtain ⟨partner, under, -⟩ := found _ value held
    exact List.mem_map.mpr ⟨_, mem_of_lookup under, rfl⟩
  -- As many keys, each once, so no key of the others is left over.
  have perm : (entries.map (·.1)).Perm (others.map (·.1)) :=
    (List.subperm_of_subset once inside).perm_of_length_le (by simp [asMany])
  intro key partner member
  obtain ⟨⟨_, value⟩, held, rfl⟩ := List.mem_map.mp (perm.mem_iff.mpr (List.mem_map_of_mem member))
  obtain ⟨other, under, alike⟩ := found _ value held
  obtain rfl : other = partner := by simpa [under] using lookup_of_mem onceOthers member
  exact ⟨value, lookup_of_mem once held, symm _ value held other member alike⟩

theorem insertEntry_subset : insertEntry key value entries ⊆ (key, value) :: entries := by
  induction entries with
  | nil => exact List.Subset.refl _
  | cons entry rest ih =>
    obtain ⟨first, known⟩ := entry
    intro pair member
    unfold insertEntry at member
    split at member
    · next isKey =>
      rw [eq_of_beq isKey] at member
      rcases List.mem_cons.mp member with here | later
      · exact here ▸ List.mem_cons_self
      · exact List.mem_cons_of_mem _ (List.mem_cons_of_mem _ later)
    · rcases List.mem_cons.mp member with here | later
      · exact here ▸ List.mem_cons_of_mem _ List.mem_cons_self
      · exact List.cons_subset_cons _ (List.subset_cons_self _ _) (ih later)

/-- Inserting an entry leaves each key there once. -/
theorem nodup_keys_insertEntry (once : (entries.map (·.1)).Nodup) (key : κ) (value : α) :
    ((insertEntry key value entries).map (·.1)).Nodup := by
  induction entries with
  | nil => exact List.nodup_singleton key
  | cons entry rest ih =>
    obtain ⟨first, known⟩ := entry
    obtain ⟨new, later⟩ := List.nodup_cons.mp once
    unfold insertEntry
    split
    · exact once
    · next differs =>
      refine List.nodup_cons.mpr ⟨fun member => ?_, ih later⟩
      rcases List.mem_cons.mp (List.map_subset _ insertEntry_subset member) with isKey | known
      · exact differs (beq_iff_eq.mpr isKey)
      · exact new known

theorem entriesOf_subset (pairs : List (κ × α)) : entriesOf pairs ⊆ pairs := by
  induction pairs using List.reverseRecOn with
  | nil => exact List.Subset.refl _
  | append_singleton earlier last ih =>
    rw [entriesOf_concat]
    refine List.Subset.trans insertEntry_subset (List.cons_subset.mpr ⟨by simp, ?_⟩)
    exact List.Subset.trans ih (List.subset_append_left _ _)

/-- Inserting entries one after the other yields each key once. -/
theorem nodup_keys_entriesOf (pairs : List (κ × α)) : ((entriesOf pairs).map (·.1)).Nodup := by
  induction pairs using List.reverseRecOn with
  | nil => exact List.nodup_nil
  | append_singleton earlier last ih =>
    rw [entriesOf_concat]
    exact nodup_keys_insertEntry ih _ _

end Entries

/-! ### Values -/

namespace Value

mutual

/-- Whether a NaN is held, at any depth.  A bean is compared by identity, whatever it holds. -/
def hasNaN : Value → Bool
  | float value => value.isNaN
  | list items => anyNaN items
  | set items => anyNaN items
  | array items => anyNaN items
  | map entries => entriesNaN entries
  | _ => false

/-- Whether one of some items holds a NaN. -/
def anyNaN : List Value → Bool
  | [] => false
  | item :: rest => item.hasNaN || anyNaN rest

/-- Whether the value of one of some entries holds a NaN. -/
def entriesNaN : List (MapKey × Value) → Bool
  | [] => false
  | (_, value) :: rest => value.hasNaN || entriesNaN rest

end

mutual

/-- Whether each map holds each of its keys once, at any depth. -/
def keyed : Value → Bool
  | list items => allKeyed items
  | set items => allKeyed items
  | array items => allKeyed items
  | map entries => decide (entries.map (·.1)).Nodup && entriesKeyed entries
  | _ => true

/-- Whether all items are keyed. -/
def allKeyed : List Value → Bool
  | [] => true
  | item :: rest => item.keyed && allKeyed rest

/-- Whether the values of all entries are keyed. -/
def entriesKeyed : List (MapKey × Value) → Bool
  | [] => true
  | (_, value) :: rest => value.keyed && entriesKeyed rest

end

theorem entriesKeyed_iff {entries : List (MapKey × Value)} :
    entriesKeyed entries ↔ ∀ key value, (key, value) ∈ entries → value.keyed := by
  induction entries with
  | nil => simp [entriesKeyed]
  | cons entry rest ih =>
    obtain ⟨own, value⟩ := entry
    simp only [entriesKeyed, Bool.and_eq_true, ih, List.mem_cons, Prod.mk.injEq]
    constructor
    · rintro ⟨here, later⟩ key other (⟨-, rfl⟩ | member)
      · exact here
      · exact later key other member
    · exact fun all => ⟨all own value (.inl ⟨rfl, rfl⟩), fun key other member =>
        all key other (.inr member)⟩

theorem entriesIn_eq_matched (entries others : List (MapKey × Value)) :
    entriesIn entries others = matched equal entries others := by
  induction entries with
  | nil => rfl
  | cons entry rest ih =>
    obtain ⟨key, value⟩ := entry
    simp only [entriesIn, ih, matched, List.all_cons]
    cases others.lookup key <;> rfl

mutual

/-- **A value is equal to itself exactly if it holds no NaN.** -/
theorem equal_self : ∀ {value : Value}, value.keyed → value.equal value = !value.hasNaN
  | null, _ => rfl
  | bool _, _ => BEq.rfl
  | int _, _ => BEq.rfl
  | float value, _ => value.equal_self
  | string _, _ => BEq.rfl
  | enum _, _ => BEq.rfl
  | list _, keyed => equalItems_self keyed
  | set _, keyed => equalItems_self keyed
  | array _, keyed => equalItems_self keyed
  | map entries, isKeyed => by
    rw [keyed, Bool.and_eq_true, decide_eq_true_iff] at isKeyed
    rw [equal, hasNaN, BEq.rfl, Bool.true_and, entriesIn_eq_matched, matched_self isKeyed.1]
    exact entries_self isKeyed.2
  | bean _, _ => BEq.rfl

theorem equalItems_self : ∀ {items : List Value},
    allKeyed items → equalItems items items = !anyNaN items
  | [], _ => rfl
  | item :: rest, isKeyed => by
    rw [allKeyed, Bool.and_eq_true] at isKeyed
    rw [equalItems, anyNaN, Bool.not_or, equal_self isKeyed.1, equalItems_self isKeyed.2]

theorem entries_self : ∀ {entries : List (MapKey × Value)},
    entriesKeyed entries → (entries.all fun entry => entry.2.equal entry.2) = !entriesNaN entries
  | [], _ => rfl
  | (_, value) :: rest, isKeyed => by
    rw [entriesKeyed, Bool.and_eq_true] at isKeyed
    rw [List.all_cons, entriesNaN, Bool.not_or, equal_self isKeyed.1, entries_self isKeyed.2]

end

mutual

/-- **Equality of values is symmetric.** -/
theorem equal_symm : ∀ {a b : Value}, a.keyed → b.keyed → a.equal b → b.equal a
  | null, b, _, _, same => by
    cases b <;> try cases same
    rfl
  | bool a, b, _, _, same => by
    cases b <;> try cases same
    exact BEq.symm same
  | int a, b, _, _, same => by
    cases b <;> try cases same
    exact BEq.symm same
  | float a, b, _, _, same => by
    cases b <;> try cases same
    exact (Binary64.equal_comm _ _).trans same
  | string a, b, _, _, same => by
    cases b <;> try cases same
    exact BEq.symm same
  | enum a, b, _, _, same => by
    cases b <;> try cases same
    exact BEq.symm same
  | list as, b, isKeyed, isKeyedToo, same => by
    cases b <;> try cases same
    exact equalItems_symm isKeyed isKeyedToo same
  | set as, b, isKeyed, isKeyedToo, same => by
    cases b <;> try cases same
    exact equalItems_symm isKeyed isKeyedToo same
  | array as, b, isKeyed, isKeyedToo, same => by
    cases b <;> try cases same
    exact equalItems_symm isKeyed isKeyedToo same
  | map as, b, isKeyed, isKeyedToo, same => by
    cases b <;> try cases same
    rename_i bs
    rw [keyed, Bool.and_eq_true, decide_eq_true_iff] at isKeyed isKeyedToo
    simp only [equal, Bool.and_eq_true, beq_iff_eq, entriesIn_eq_matched] at same ⊢
    refine ⟨same.1.symm, matched_symm isKeyed.1 isKeyedToo.1 same.1 ?_ same.2⟩
    intro key value member partner memberToo
    exact entries_symm isKeyed.2 member (entriesKeyed_iff.mp isKeyedToo.2 _ _ memberToo)
  | bean a, b, _, _, same => by
    cases b <;> try cases same
    exact BEq.symm same

theorem equalItems_symm : ∀ {as bs : List Value},
    allKeyed as → allKeyed bs → equalItems as bs → equalItems bs as
  | [], bs, _, _, same => by
    cases bs <;> try cases same
    rfl
  | a :: as, bs, isKeyed, isKeyedToo, same => by
    cases bs <;> try cases same
    simp only [allKeyed, equalItems, Bool.and_eq_true] at isKeyed isKeyedToo same ⊢
    exact ⟨equal_symm isKeyed.1 isKeyedToo.1 same.1,
      equalItems_symm isKeyed.2 isKeyedToo.2 same.2⟩

theorem entries_symm : ∀ {entries : List (MapKey × Value)}, entriesKeyed entries →
    ∀ {key : MapKey} {value other : Value}, (key, value) ∈ entries → other.keyed →
      value.equal other → other.equal value
  | (own, first) :: rest, isKeyed, key, value, other, member, isKeyedToo, same => by
    rw [entriesKeyed, Bool.and_eq_true] at isKeyed
    rcases List.mem_cons.mp member with here | later
    · obtain ⟨-, rfl⟩ := Prod.mk.injEq .. ▸ here
      exact equal_symm isKeyed.1 isKeyedToo same
    · exact entries_symm isKeyed.2 later isKeyedToo same

end

/-! What is read from a document is keyed: the last entry of a name stays. -/

/-- The map of some pairs is keyed. -/
theorem keyed_ofPairs {pairs : List (MapKey × Value)} (all : entriesKeyed pairs) :
    (ofPairs pairs).keyed := by
  rw [ofPairs, keyed, Bool.and_eq_true, decide_eq_true_iff]
  exact ⟨nodup_keys_entriesOf pairs, entriesKeyed_iff.mpr fun key value member =>
    entriesKeyed_iff.mp all key value (entriesOf_subset pairs member)⟩

mutual

/-- **The value of a document is keyed**, whatever names its objects repeat. -/
theorem keyed_ofJson : ∀ json : Json, (ofJson json).keyed
  | .null => rfl
  | .bool _ => rfl
  | .integer value => by
    rw [ofJson]
    split <;> rfl
  | .float _ => rfl
  | .string _ => rfl
  | .array items => allKeyed_itemsOfJson items
  | .object entries => keyed_ofPairs (entriesKeyed_entriesOfJson entries)

theorem allKeyed_itemsOfJson : ∀ items : List Json, allKeyed (itemsOfJson items)
  | [] => rfl
  | item :: rest => by
    rw [itemsOfJson, allKeyed, keyed_ofJson item, allKeyed_itemsOfJson rest, Bool.and_self]

theorem entriesKeyed_entriesOfJson : ∀ entries : List (String × Json),
    entriesKeyed (entriesOfJson entries)
  | [] => rfl
  | (_, value) :: rest => by
    rw [entriesOfJson, entriesKeyed, keyed_ofJson value, entriesKeyed_entriesOfJson rest,
      Bool.and_self]

end

end Value

/-! ### Attributes -/

namespace AttributeValue

mutual

/-- Whether a NaN is held, at any depth. -/
def hasNaN : AttributeValue → Bool
  | float value => value.isNaN
  | list items => anyNaN items
  | _ => false

/-- Whether one of some items holds a NaN. -/
def anyNaN : List AttributeValue → Bool
  | [] => false
  | item :: rest => item.hasNaN || anyNaN rest

end

mutual

theorem equal_self : ∀ value : AttributeValue, value.equal value = !value.hasNaN
  | bool _ => BEq.rfl
  | int _ => BEq.rfl
  | float value => value.equal_self
  | string _ => BEq.rfl
  | list items => equalItems_self items

theorem equalItems_self : ∀ items : List AttributeValue, equalItems items items = !anyNaN items
  | [] => rfl
  | item :: rest => by
    rw [equalItems, anyNaN, Bool.not_or, equal_self item, equalItems_self rest]

end

mutual

theorem equal_symm : ∀ {a b : AttributeValue}, a.equal b → b.equal a
  | bool a, b, same => by
    cases b <;> try cases same
    exact BEq.symm same
  | int a, b, same => by
    cases b <;> try cases same
    exact BEq.symm same
  | float a, b, same => by
    cases b <;> try cases same
    exact (Binary64.equal_comm _ _).trans same
  | string a, b, same => by
    cases b <;> try cases same
    exact BEq.symm same
  | list as, b, same => by
    cases b <;> try cases same
    exact equalItems_symm same

theorem equalItems_symm : ∀ {as bs : List AttributeValue}, equalItems as bs → equalItems bs as
  | [], bs, same => by
    cases bs <;> try cases same
    rfl
  | a :: as, bs, same => by
    cases bs <;> try cases same
    simp only [equalItems, Bool.and_eq_true] at same ⊢
    exact ⟨equal_symm same.1, equalItems_symm same.2⟩

end

end AttributeValue

namespace Attributes

variable {a b attributes : Attributes}

/-- Whether one of the attributes holds a NaN. -/
def hasNaN (attributes : Attributes) : Bool := attributes.entries.any (·.2.hasNaN)

/-- Whether each name is there once. -/
def keyed (attributes : Attributes) : Bool := decide (attributes.entries.map (·.1)).Nodup

theorem equal_eq_matched (a b : Attributes) : a.equal b
    = (a.entries.length == b.entries.length
        && matched AttributeValue.equal a.entries b.entries) := by
  rw [equal, matched]
  congr 2
  funext entry
  rw [get?]
  cases b.entries.lookup entry.1 <;> rfl

theorem equal_self (isKeyed : attributes.keyed) :
    attributes.equal attributes = !attributes.hasNaN := by
  rw [equal_eq_matched, BEq.rfl, Bool.true_and, matched_self (of_decide_eq_true isKeyed), hasNaN,
    List.not_any_eq_all_not]
  exact congrArg _ (funext fun entry => AttributeValue.equal_self entry.2)

theorem equal_symm (isKeyed : a.keyed) (isKeyedToo : b.keyed) (same : a.equal b) : b.equal a := by
  simp only [equal_eq_matched, Bool.and_eq_true, beq_iff_eq] at same ⊢
  exact ⟨same.1.symm, matched_symm (of_decide_eq_true isKeyed) (of_decide_eq_true isKeyedToo)
    same.1 (fun _ _ _ _ _ => AttributeValue.equal_symm) same.2⟩

end Attributes

/-! ### Descriptors -/

namespace ConstraintDescriptor

mutual

/-- Whether an attribute holds a NaN, also one of a composing constraint. -/
def hasNaN : ConstraintDescriptor → Bool
  | mk _ attributes _ _ _ _ composing => attributes.hasNaN || anyNaN composing

/-- Whether one of some descriptors holds a NaN. -/
def anyNaN : List ConstraintDescriptor → Bool
  | [] => false
  | descriptor :: rest => descriptor.hasNaN || anyNaN rest

end

mutual

/-- Whether all attributes are keyed, also those of composing constraints. -/
def keyed : ConstraintDescriptor → Bool
  | mk _ attributes _ _ _ _ composing => attributes.keyed && allKeyed composing

/-- Whether all of some descriptors are keyed. -/
def allKeyed : List ConstraintDescriptor → Bool
  | [] => true
  | descriptor :: rest => descriptor.keyed && allKeyed rest

end

mutual

theorem equal_self : ∀ {descriptor : ConstraintDescriptor}, descriptor.keyed →
    descriptor.equal descriptor = !descriptor.hasNaN
  | mk _ _ _ _ _ _ _, isKeyed => by
    rw [keyed, Bool.and_eq_true] at isKeyed
    simp only [equal, hasNaN, BEq.rfl, Bool.true_and, Bool.and_true, Bool.not_or,
      Attributes.equal_self isKeyed.1, equalAll_self isKeyed.2]

theorem equalAll_self : ∀ {descriptors : List ConstraintDescriptor}, allKeyed descriptors →
    equalAll descriptors descriptors = !anyNaN descriptors
  | [], _ => rfl
  | descriptor :: rest, isKeyed => by
    rw [allKeyed, Bool.and_eq_true] at isKeyed
    rw [equalAll, anyNaN, Bool.not_or, equal_self isKeyed.1, equalAll_self isKeyed.2]

end

mutual

theorem equal_symm : ∀ {a b : ConstraintDescriptor}, a.keyed → b.keyed → a.equal b → b.equal a
  | mk _ _ _ _ _ _ _, mk _ _ _ _ _ _ _, isKeyed, isKeyedToo, same => by
    rw [keyed, Bool.and_eq_true] at isKeyed isKeyedToo
    simp only [equal, Bool.and_eq_true, beq_iff_eq, and_assoc] at same ⊢
    obtain ⟨constraint, attributes, groups, payload, template, single, composing⟩ := same
    exact ⟨constraint.symm, Attributes.equal_symm isKeyed.1 isKeyedToo.1 attributes, groups.symm,
      payload.symm, template.symm, single.symm,
      equalAll_symm isKeyed.2 isKeyedToo.2 composing⟩

theorem equalAll_symm : ∀ {as bs : List ConstraintDescriptor},
    allKeyed as → allKeyed bs → equalAll as bs → equalAll bs as
  | [], bs, _, _, same => by
    cases bs <;> try cases same
    rfl
  | a :: as, bs, isKeyed, isKeyedToo, same => by
    cases bs <;> try cases same
    simp only [allKeyed, equalAll, Bool.and_eq_true] at isKeyed isKeyedToo same ⊢
    exact ⟨equal_symm isKeyed.1 isKeyedToo.1 same.1, equalAll_symm isKeyed.2 isKeyedToo.2 same.2⟩

end

end ConstraintDescriptor

/-! ### Violations -/

namespace Violation

variable {a b violation : Violation}

/-- Whether the invalid value or an attribute of the constraint holds a NaN. -/
def hasNaN (violation : Violation) : Bool :=
  violation.invalid.hasNaN || violation.constraint.any (·.hasNaN)

/-- Whether the invalid value and the attributes of the constraint are keyed. -/
def keyed (violation : Violation) : Bool :=
  violation.invalid.keyed && violation.constraint.all (·.keyed)

/-- **A violation is equal to itself exactly if it holds no NaN.** -/
theorem equal_self (isKeyed : violation.keyed) : violation.equal violation = !violation.hasNaN := by
  rw [keyed, Bool.and_eq_true] at isKeyed
  have constraint : equalConstraint violation.constraint violation.constraint
      = !violation.constraint.any (·.hasNaN) := by
    cases own : violation.constraint with
    | none => rfl
    | some descriptor => exact ConstraintDescriptor.equal_self (by simpa [own] using isKeyed.2)
  simp only [equal, hasNaN, BEq.rfl, Bool.true_and, Bool.not_or, Value.equal_self isKeyed.1,
    constraint]

theorem equal_self_of_number (isKeyed : violation.keyed) (number : violation.hasNaN = false) :
    violation.equal violation := by
  rw [equal_self isKeyed, number, Bool.not_false]

/-- **Equality of violations is symmetric.** -/
theorem equal_symm (isKeyed : a.keyed) (isKeyedToo : b.keyed) (same : a.equal b) : b.equal a := by
  rw [keyed, Bool.and_eq_true] at isKeyed isKeyedToo
  rw [equal_iff] at same ⊢
  obtain ⟨message, template, rootType, owner, property, path, invalid, constraint⟩ := same
  refine ⟨message.symm, template.symm, rootType.symm, owner.symm, property.symm, path.symm,
    Value.equal_symm isKeyed.1 isKeyedToo.1 invalid, ?_⟩
  cases first : a.constraint with
  | none => cases second : b.constraint <;> simp_all [equalConstraint]
  | some descriptor =>
    cases second : b.constraint with
    | none => simp [first, second, equalConstraint] at constraint
    | some other =>
      rw [first, second] at constraint
      rw [first, Option.all_some] at isKeyed
      rw [second, Option.all_some] at isKeyedToo
      exact ConstraintDescriptor.equal_symm isKeyed.2 isKeyedToo.2 constraint

/-- What is equal to something holds no NaN. -/
theorem hasNaN_of_equal (isKeyed : a.keyed) (isKeyedToo : b.keyed) (same : a.equal b) :
    b.hasNaN = false := by
  have self : b.equal b := equal_trans (equal_symm isKeyed isKeyedToo same) same
  rw [equal_self isKeyedToo] at self
  simpa using self

end Violation

end GraphValidation
