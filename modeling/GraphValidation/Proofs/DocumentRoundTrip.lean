/-
**Values through documents and back.**

A value that holds nothing but what a document can say comes back from its document as it was, down
to the bits of its numbers: integers and floats stay what they are, lists keep their elements in
order, and maps keep their entries.  A document lists the entries of an object in ascending order,
so a map may come back with its entries in another order, which is nothing to equality.

* `Value.Literal` — the values that a document can say.
* `foldl_perm_of_nodup` — entries of different keys stay the same up to their order, in whichever
  way they are inserted one after the other.
* `Value.Literal.rearranged` — **a literal value comes back rearranged**, with nothing else changed.
* `Value.ofJson_toJson` — **it is equal to what comes back**.
-/
import GraphValidation.Proofs.EntryOrder

namespace GraphValidation

/-! ### Inserting entries of different keys -/

section Entries

variable {κ α : Type} {key : κ} {value : α} {entries : List (κ × α)}

/-- Entries of different keys stay the same up to their order, in whichever way they are inserted
one after the other. -/
theorem foldl_perm_of_nodup {insert : κ → α → List (κ × α) → List (κ × α)}
    (new : ∀ {key value entries}, key ∉ entries.map (·.1) →
      (insert key value entries).Perm ((key, value) :: entries))
    {pairs : List (κ × α)} (once : (pairs.map (·.1)).Nodup) :
    (pairs.foldl (fun entries pair => insert pair.1 pair.2 entries) []).Perm pairs := by
  induction pairs using List.reverseRecOn with
  | nil => exact .nil
  | append_singleton earlier last ih =>
    rw [List.map_append, List.nodup_append] at once
    obtain ⟨onceEarlier, -, apart⟩ := once
    have known := ih onceEarlier
    have absent : last.1 ∉ earlier.map (·.1) :=
      fun member => apart _ member _ List.mem_cons_self rfl
    rw [List.foldl_append]
    refine (new ((known.map _).mem_iff.not.mpr absent)).trans ?_
    exact (known.cons last).trans (List.perm_append_singleton last earlier).symm

theorem insertEntry_perm [BEq κ] [LawfulBEq κ] (absent : key ∉ entries.map (·.1)) :
    (insertEntry key value entries).Perm ((key, value) :: entries) := by
  induction entries with
  | nil => exact .refl _
  | cons entry rest ih =>
    obtain ⟨first, known⟩ := entry
    rw [List.map_cons, List.mem_cons, not_or] at absent
    obtain ⟨differs, absent⟩ := absent
    rw [insertEntry, if_neg (fun isKey => differs (eq_of_beq isKey).symm)]
    exact ((ih absent).cons _).trans (.swap ..)

theorem entriesOf_perm [BEq κ] [LawfulBEq κ] (once : (entries.map (·.1)).Nodup) :
    (entriesOf entries).Perm entries :=
  foldl_perm_of_nodup insertEntry_perm once

end Entries

namespace Json

variable {α : Type} {key : String} {value : α} {entries : List (String × α)}

theorem insertEntry_perm (absent : key ∉ entries.map (·.1)) :
    (insertEntry key value entries).Perm ((key, value) :: entries) := by
  induction entries with
  | nil => exact .refl _
  | cons entry rest ih =>
    obtain ⟨first, known⟩ := entry
    rw [List.map_cons, List.mem_cons, not_or] at absent
    obtain ⟨differs, absent⟩ := absent
    rw [insertEntry, if_neg differs]
    split
    · exact .refl _
    · exact ((ih absent).cons _).trans (.swap ..)

theorem sortEntries_perm (once : (entries.map (·.1)).Nodup) : (sortEntries entries).Perm entries :=
  foldl_perm_of_nodup insertEntry_perm once

end Json

namespace Value

/-! ### Literal values -/

/-- The map with some entries under texts. -/
def ofTexts (pairs : List (String × Value)) : Value :=
  map (pairs.map fun pair => (.string pair.1, pair.2))

/-- What a document can say: null, truth values, texts, integers and finite numbers, and lists and
maps of these, the maps under texts. -/
inductive Literal : Value → Prop
  | null : Literal null
  | bool (value : Bool) : Literal (bool value)
  | int (value : Int64) : Literal (int value)
  | float {value : Binary64} : value.isFinite → Literal (float value)
  | string (text : String) : Literal (string text)
  | list {items : List Value} : (∀ item ∈ items, Literal item) → Literal (list items)
  | map {pairs : List (String × Value)} : (pairs.map (·.1)).Nodup →
    (∀ pair ∈ pairs, Literal pair.2) → Literal (ofTexts pairs)

theorem anyNaN_eq_any (items : List Value) : anyNaN items = items.any hasNaN := by
  induction items with
  | nil => rfl
  | cons item rest ih => rw [anyNaN, ih, List.any_cons]

theorem entriesNaN_eq_any (entries : List (MapKey × Value)) :
    entriesNaN entries = entries.any fun entry => entry.2.hasNaN := by
  induction entries with
  | nil => rfl
  | cons entry rest ih => rw [entriesNaN, ih, List.any_cons]

theorem Literal.hasNaN_eq {value : Value} (literal : value.Literal) : value.hasNaN = false := by
  induction literal with
  | float finite =>
    rw [Binary64.isFinite, decide_eq_true_iff] at finite
    exact decide_eq_false (Nat.lt_asymm finite)
  | list _ ih => simpa [hasNaN, anyNaN_eq_any] using ih
  | map _ _ ih => simpa [ofTexts, hasNaN, entriesNaN_eq_any] using ih
  | _ => rfl

/-! ### The way to a document and back -/

theorem itemsToJson_eq_map (items : List Value) : itemsToJson items = items.map toJson := by
  induction items with
  | nil => rfl
  | cons item rest ih => rw [itemsToJson, ih, List.map_cons]

theorem entriesToJson_eq_map (entries : List (MapKey × Value)) :
    entriesToJson entries = entries.map fun entry => (entry.1.text, entry.2.toJson) := by
  induction entries with
  | nil => rfl
  | cons entry rest ih => rw [entriesToJson, ih, List.map_cons]

theorem itemsOfJson_eq_map (items : List Json) : itemsOfJson items = items.map ofJson := by
  induction items with
  | nil => rfl
  | cons item rest ih => rw [itemsOfJson, ih, List.map_cons]

theorem entriesOfJson_eq_map (entries : List (String × Json)) :
    entriesOfJson entries = entries.map fun entry => (.string entry.1, ofJson entry.2) := by
  induction entries with
  | nil => rfl
  | cons entry rest ih => rw [entriesOfJson, ih, List.map_cons]

/-- An integer of 64 bits comes back as itself, and not as a float. -/
theorem ofJson_integer (value : Int64) : ofJson (.integer value.toInt) = int value := by
  rw [ofJson, if_pos ⟨Int64.minValue_le_toInt value, Int64.toInt_le value⟩, Int64.ofInt_toInt]

/-- A map under texts comes back with what its values come back as, in some order. -/
theorem ofJson_toJson_map {pairs : List (String × Value)} (once : (pairs.map (·.1)).Nodup) :
    ∃ entries, ofJson (ofTexts pairs).toJson = map entries
      ∧ (pairs.map fun pair => (MapKey.string pair.1, ofJson pair.2.toJson)).Perm entries := by
  let members := pairs.map fun pair => (pair.1, pair.2.toJson)
  have written : entriesToJson (pairs.map fun pair => (.string pair.1, pair.2)) = members := by
    rw [entriesToJson_eq_map, List.map_map]
    rfl
  have sorted : (Json.sortEntries members).Perm members :=
    Json.sortEntries_perm (by simpa [members, Function.comp_def] using once)
  let entryOf := fun entry : String × Json => (MapKey.string entry.1, ofJson entry.2)
  let back := (Json.sortEntries members).map entryOf
  have read : back.Perm (pairs.map fun pair => (.string pair.1, ofJson pair.2.toJson)) := by
    simpa [members, entryOf, Function.comp_def] using sorted.map entryOf
  have onceBack : (back.map (·.1)).Nodup := by
    rw [(read.map _).nodup_iff]
    simpa [Function.comp_def] using once.map fun _ _ => MapKey.string.inj
  refine ⟨entriesOf back, ?_, ((entriesOf_perm onceBack).trans read).symm⟩
  rw [ofTexts, toJson, Json.ofEntries, ofJson, written, entriesOfJson_eq_map, ofPairs]

namespace Literal

variable {value : Value}

/-- **A literal value comes back rearranged**: only the entries of its maps may stand in another
order. -/
theorem rearranged (literal : value.Literal) : Rearranged value (ofJson value.toJson) := by
  induction literal with
  | null => exact .refl
  | bool _ => exact .refl
  | int value => exact (ofJson_integer value).symm ▸ .refl
  | float finite =>
    rw [toJson, Json.ofFloat, if_pos finite]
    exact .refl
  | string _ => exact .refl
  | list _ ih =>
    rw [toJson, ofJson, itemsToJson_eq_map, itemsOfJson_eq_map, List.map_map]
    exact rearranged_list (List.forall₂_map_right_iff.mpr (List.forall₂_same.mpr ih))
  | @map pairs once _ ih =>
    obtain ⟨entries, back, perm⟩ := ofJson_toJson_map once
    rw [back]
    refine .tail (rearranged_map ?_) (.entries perm)
    refine List.forall₂_map_left_iff.mpr (List.forall₂_map_right_iff.mpr (List.forall₂_same.mpr ?_))
    exact fun pair member => ⟨rfl, ih pair member⟩

end Literal

/-- **A literal value is equal to what its document says.**  What comes back differs from the value in
nothing but the order in which its maps list their entries. -/
theorem ofJson_toJson {value : Value} (literal : value.Literal) :
    (ofJson value.toJson).equal value ∧ Rearranged value (ofJson value.toJson) := by
  have rearranged := literal.rearranged
  have isKeyedBack := keyed_ofJson value.toJson
  have isKeyed : value.keyed := rearranged.keyed_eq.trans isKeyedBack
  refine ⟨?_, rearranged⟩
  calc (ofJson value.toJson).equal value
    _ = value.equal (ofJson value.toJson) := equal_comm isKeyedBack isKeyed
    _ = !value.hasNaN := rearranged.equal_self isKeyed
    _ = true := by rw [literal.hasNaN_eq, Bool.not_false]

/-- A lease with an integer and a float of one magnitude, and with a map within a map. -/
def lease : Value :=
  ofTexts [("rooms", list [int 2, float (Binary64.ofInt 2), null]),
    ("keys", ofTexts [("spare", bool true), ("main", string "blue")])]

theorem lease_literal : lease.Literal := by
  have rooms : (list [int 2, float (Binary64.ofInt 2), null]).Literal :=
    .list (by simpa using ⟨.int 2, .float (by decide +kernel), .null⟩)
  have keys : (ofTexts [("spare", bool true), ("main", string "blue")]).Literal :=
    .map (by decide) (by simpa using ⟨.bool true, .string "blue"⟩)
  exact .map (by decide) (by simpa using ⟨rooms, keys⟩)

/-- A lease is equal to what its document says. -/
theorem ofJson_toJson_lease : lease.Literal ∧ (ofJson lease.toJson).equal lease :=
  ⟨lease_literal, (ofJson_toJson lease_literal).1⟩

example : ofJson lease.toJson
    = ofTexts [("keys", ofTexts [("main", string "blue"), ("spare", bool true)]),
        ("rooms", list [int 2, float (Binary64.ofInt 2), null])] := by
  rfl

end Value

end GraphValidation
