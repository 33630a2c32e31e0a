/-
**Equality and the order of what is stored.**

A map is compared by looking each of its entries up in the other map, so the order in which entries
were inserted is nothing to equality: to list the entries of any maps of a value in another order, at
whatever depth, leaves the value equal to the same values as before.  Elements of lists, arrays and
sets are compared position by position, so that the order of a set counts as that of a list does.

* `Value.Rearranges`, `Value.Rearranged` — the entries of one map, and of any maps, in another order.
* `Value.Rearranged.equal_eq` — **rearranged values are equal to the same values**.
* `Value.rearranges_ofPairs` — maps that hold the same under each key are rearranged, however their
  entries were inserted.
* `Value.equal_laws` — **equality is symmetric, transitive, and blind to the order of entries**.
* `Value.set_equal_ordered` — two sets of the same elements that are not equal.
-/
import Mathlib.Logic.Relation
import GraphValidation.Proofs.SelfEquality

namespace GraphValidation

/-! ### Entries that are found alike -/

section Entries

variable {κ α : Type} [BEq κ] [LawfulBEq κ] {entries others : List (κ × α)}

/-- Entries under the same keys with the same values are the same up to their order. -/
theorem perm_of_lookup (once : (entries.map (·.1)).Nodup) (onceOthers : (others.map (·.1)).Nodup)
    (same : ∀ key, entries.lookup key = others.lookup key) : entries.Perm others := by
  refine (List.perm_ext_iff_of_nodup (.of_map _ once) (.of_map _ onceOthers)).mpr ?_
  rintro ⟨key, value⟩
  constructor
  · intro member
    exact mem_of_lookup ((same key).symm.trans (lookup_of_mem once member))
  · intro member
    exact mem_of_lookup ((same key).trans (lookup_of_mem onceOthers member))

end Entries

namespace Value

/-! ### Rearranged values -/

/-- One map, at whatever depth, lists its entries in another order. -/
inductive Rearranges : Value → Value → Prop
  | entries {entries others : List (MapKey × Value)} : entries.Perm others →
    Rearranges (map entries) (map others)
  | inList {item other : Value} (before after : List Value) : Rearranges item other →
    Rearranges (list (before ++ item :: after)) (list (before ++ other :: after))
  | inSet {item other : Value} (before after : List Value) : Rearranges item other →
    Rearranges (set (before ++ item :: after)) (set (before ++ other :: after))
  | inArray {item other : Value} (before after : List Value) : Rearranges item other →
    Rearranges (array (before ++ item :: after)) (array (before ++ other :: after))
  | inMap {value other : Value} (before after : List (MapKey × Value)) (key : MapKey) :
    Rearranges value other →
    Rearranges (map (before ++ (key, value) :: after)) (map (before ++ (key, other) :: after))

/-- Any number of maps list their entries in other orders. -/
abbrev Rearranged : Value → Value → Prop := Relation.ReflTransGen Rearranges

/-- Two ways of inserting that leave the same under each key make rearranged maps. -/
theorem rearranges_ofPairs {pairs others : List (MapKey × Value)}
    (same : ∀ key, (entriesOf pairs).lookup key = (entriesOf others).lookup key) :
    Rearranges (ofPairs pairs) (ofPairs others) :=
  .entries (perm_of_lookup (nodup_keys_entriesOf pairs) (nodup_keys_entriesOf others) same)

/-! What is held may be rearranged everywhere at once. -/

section Within

variable {ι : Type} {alike : ι → ι → Prop} {wrap : List ι → Value} {items others : List ι}

/-- What may be rearranged at one place of a container may be at all of its places. -/
theorem rearranged_within
    (one : ∀ before after item other, alike item other →
      Rearranged (wrap (before ++ item :: after)) (wrap (before ++ other :: after)))
    (each : List.Forall₂ alike items others) (before : List ι) :
    Rearranged (wrap (before ++ items)) (wrap (before ++ others)) := by
  induction each generalizing before with
  | nil => exact .refl
  | @cons item other rest later here _ ih =>
    refine .trans (one before rest item other here) ?_
    rw [List.append_cons before other rest, List.append_cons before other later]
    exact ih (before ++ [other])

end Within

theorem rearranged_list {items others : List Value}
    (each : List.Forall₂ Rearranged items others) : Rearranged (list items) (list others) := by
  refine rearranged_within (fun before after item other alike => ?_) each []
  refine Relation.ReflTransGen.lift (fun item => list (before ++ item :: after)) ?_ _ _ alike
  exact fun _ _ step => step.inList before after

theorem rearranged_map {entries others : List (MapKey × Value)}
    (each : List.Forall₂ (fun entry other => entry.1 = other.1 ∧ Rearranged entry.2 other.2)
      entries others) : Rearranged (map entries) (map others) := by
  refine rearranged_within (fun before after entry other alike => ?_) each []
  obtain ⟨key, value⟩ := entry
  obtain ⟨other, values⟩ := other
  obtain ⟨rfl, alike⟩ := alike
  refine Relation.ReflTransGen.lift (fun value => map (before ++ (key, value) :: after)) ?_ _ _ alike
  exact fun _ _ step => step.inMap before after key

/-! Keys stay there once. -/

theorem allKeyed_eq_all (items : List Value) : allKeyed items = items.all keyed := by
  induction items with
  | nil => rfl
  | cons item rest ih => rw [allKeyed, ih, List.all_cons]

theorem entriesKeyed_eq_all (entries : List (MapKey × Value)) :
    entriesKeyed entries = entries.all fun entry => entry.2.keyed := by
  induction entries with
  | nil => rfl
  | cons entry rest ih => rw [entriesKeyed, ih, List.all_cons]

theorem Rearranges.keyed_eq {a b : Value} (step : Rearranges a b) : a.keyed = b.keyed := by
  induction step with
  | entries perm =>
    have keys := (perm.map (·.1)).nodup_iff
    simp only [keyed, keys, entriesKeyed_eq_all, perm.all_eq]
  | inList before after _ ih =>
    simp only [keyed, allKeyed_eq_all, List.all_append, List.all_cons, ih]
  | inSet before after _ ih =>
    simp only [keyed, allKeyed_eq_all, List.all_append, List.all_cons, ih]
  | inArray before after _ ih =>
    simp only [keyed, allKeyed_eq_all, List.all_append, List.all_cons, ih]
  | inMap before after key _ ih =>
    simp only [keyed, entriesKeyed_eq_all, List.all_append, List.all_cons, ih, List.map_append,
      List.map_cons]

/-! ### Equality of rearranged values -/

/-- Elements are compared position by position. -/
theorem equalItems_iff {items others : List Value} :
    equalItems items others ↔ List.Forall₂ (fun item other => item.equal other) items others := by
  induction items generalizing others with
  | nil => cases others <;> simp [equalItems]
  | cons item rest ih =>
    cases others with
    | nil => simp [equalItems]
    | cons other others => rw [equalItems, Bool.and_eq_true, ih, List.forall₂_cons]

/-- An element that is equal to the same values may take the place of another one. -/
theorem equalItems_congr {item other : Value} (alike : ∀ c, item.equal c = other.equal c)
    (before after items : List Value) :
    equalItems (before ++ item :: after) items = equalItems (before ++ other :: after) items := by
  induction before generalizing items with
  | nil =>
    cases items with
    | nil => rfl
    | cons first rest => simp only [List.nil_append, equalItems, alike]
  | cons first rest ih =>
    cases items with
    | nil => rfl
    | cons head tail => simp only [List.cons_append, equalItems, ih]

/-- Each entry is looked up on its own, so it is nothing to a comparison where it stands. -/
theorem Rearranges.equal_eq {a b : Value} (step : Rearranges a b) (c : Value) :
    a.equal c = b.equal c := by
  induction step generalizing c with
  | entries perm =>
    cases c <;> try rfl
    simp only [equal, perm.length_eq, entriesIn_eq_matched, matched, perm.all_eq]
  | inList before after _ ih =>
    cases c <;> try rfl
    exact equalItems_congr ih before after _
  | inSet before after _ ih =>
    cases c <;> try rfl
    exact equalItems_congr ih before after _
  | inArray before after _ ih =>
    cases c <;> try rfl
    exact equalItems_congr ih before after _
  | inMap before after key _ ih =>
    cases c <;> try rfl
    simp only [equal, List.length_append, List.length_cons, entriesIn_eq_matched, matched,
      List.all_append, List.all_cons, funext ih]

theorem equal_comm {a b : Value} (isKeyed : a.keyed) (isKeyedToo : b.keyed) :
    a.equal b = b.equal a :=
  Bool.eq_iff_iff.mpr ⟨equal_symm isKeyed isKeyedToo, equal_symm isKeyedToo isKeyed⟩

namespace Rearranged

variable {a b a' b' : Value}

theorem keyed_eq (rearranged : Rearranged a b) : a.keyed = b.keyed := by
  induction rearranged with
  | refl => rfl
  | tail _ step ih => exact ih.trans step.keyed_eq

theorem equal_left (rearranged : Rearranged a b) (c : Value) : a.equal c = b.equal c := by
  induction rearranged with
  | refl => rfl
  | tail _ step ih => exact ih.trans (step.equal_eq c)

/-- **Rearranged values are equal to the same values**, on both sides. -/
theorem equal_eq (isKeyed : a.keyed) (isKeyedToo : b.keyed) (first : Rearranged a a')
    (second : Rearranged b b') : a'.equal b' = a.equal b := by
  have isKeyedLater : b'.keyed := second.keyed_eq ▸ isKeyedToo
  calc a'.equal b' = a.equal b' := (first.equal_left b').symm
    _ = b'.equal a := equal_comm isKeyed isKeyedLater
    _ = b.equal a := (second.equal_left a).symm
    _ = a.equal b := equal_comm isKeyedToo isKeyed

/-- A rearranged value is equal to the value, unless that holds a NaN. -/
theorem equal_self (isKeyed : a.keyed) (rearranged : Rearranged a b) :
    a.equal b = !a.hasNaN :=
  (equal_eq isKeyed isKeyed .refl rearranged).trans (Value.equal_self isKeyed)

end Rearranged

/-! ### The laws of equality -/

/-- **The laws of equality.**  It is symmetric and transitive; it does not depend on the order in
which the entries of maps were inserted, at any depth; and beans are equal exactly if they are one
instance.  The elements of a set are compared in the order in which they are stored. -/
theorem equal_laws (a b c : Value) (isKeyed : a.keyed) (isKeyedToo : b.keyed) :
    a.equal b = b.equal a
      ∧ (a.equal b → b.equal c → a.equal c)
      ∧ (∀ a' b', Rearranged a a' → Rearranged b b' → a'.equal b' = a.equal b)
      ∧ (∀ pairs others : List (MapKey × Value),
          (∀ key, (entriesOf pairs).lookup key = (entriesOf others).lookup key) →
            Rearranged (ofPairs pairs) (ofPairs others))
      ∧ (∀ ref other : BeanRef, (bean ref).equal (bean other) ↔ ref.id = other.id)
      ∧ ∀ items others : List Value, (set items).equal (set others)
          ↔ List.Forall₂ (fun item other => item.equal other) items others := by
  refine ⟨equal_comm isKeyed isKeyedToo, equal_trans, fun a' b' first second => ?_,
    fun pairs others same => ?_, fun ref other => ?_, fun items others => equalItems_iff⟩
  · exact Rearranged.equal_eq isKeyed isKeyedToo first second
  · exact .single (rearranges_ofPairs same)
  · exact beq_iff_eq

/-- Two entries whose keys have one text, in an order of choice. -/
def twins (swapped : Bool) : Value :=
  if swapped then map [(.bool true, float .zero), (.string "true", int 1)]
  else map [(.string "true", int 1), (.bool true, float .zero)]

/-- A crate with a set and a map that holds another one. -/
def crate (swapped : Bool) : Value :=
  list [set [string "paper"],
    map (if swapped then [(.int 7, null), (.string "twins", twins true)]
      else [(.string "twins", twins false), (.int 7, null)])]

theorem crate_rearranged : Rearranged (crate false) (crate true) := by
  have inner : Rearranges (twins false) (twins true) := .entries (.swap ..)
  have outer : Rearranges (map [(.string "twins", twins true), (.int 7, null)])
      (map [(.int 7, null), (.string "twins", twins true)]) := .entries (.swap ..)
  have first := (inner.inMap [] [(.int 7, null)] (.string "twins")).inList [set [string "paper"]] []
  exact .tail (.single first) (outer.inList [set [string "paper"]] [])

/-- A crate is equal to the crate whose maps list their entries the other way round. -/
theorem equal_laws_crate : (crate false).keyed ∧ (crate true).equal (crate false) := by
  have isKeyed : (crate false).keyed := by decide +kernel
  have laws := equal_laws (crate false) (crate false) null isKeyed isKeyed
  have same : (crate true).equal (crate false) = (crate false).equal (crate false) :=
    laws.2.2.1 (crate true) (crate false) crate_rearranged .refl
  exact ⟨isKeyed, same.trans (by decide +kernel)⟩

/-- **Two sets of the same elements that are not equal**: the order in which elements are stored
counts, in a set that is a value of a map as well. -/
theorem set_equal_ordered :
    [int 1, int 2].Perm [int 2, int 1]
      ∧ (set [int 1, int 2]).equal (set [int 2, int 1]) = false
      ∧ (map [(.string "sizes", set [int 1, int 2])]).equal
          (map [(.string "sizes", set [int 2, int 1])]) = false :=
  ⟨.swap .., by decide +kernel, by decide +kernel⟩

end Value

end GraphValidation
