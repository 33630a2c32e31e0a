/-
**Blanks and separators stand in no name.**

The characters of a type's name are letters and numbers of any script and three signs.  That no
blank and none of the signs that separate types is among them is read off the tables: a set that is
put together from ranges holds no more than these, and none of the ranges listed for letters and
numbers meets a blank or a separator.

* `CharSet.Clear` — a set of characters without blanks and separators; what keeps it so.
* `Spells` — the characters of the lines of a table.
* `isNameChar_of_isBlank`, `isNameChar_separators` — **blanks, commas and angle brackets are no
  characters of names**.
-/
import Mathlib.Tactic.SplitIfs
import GraphValidation.Type.Ref

namespace GraphValidation.Text

/-! ### Ranges -/

/-- A code point lies in a range. -/
def CodeRange.Holds (range : CodeRange) (n : Nat) : Prop := range.first ≤ n ∧ n ≤ range.last

/-- The code points of blanks, the comma and the angle brackets. -/
def separators : List CodeRange :=
  [⟨9, 13⟩, ⟨0x20, 0x20⟩, ⟨0x2C, 0x2C⟩, ⟨0x3C, 0x3C⟩, ⟨0x3E, 0x3E⟩, ⟨0x85, 0x85⟩, ⟨0xA0, 0xA0⟩,
   ⟨0x1680, 0x1680⟩, ⟨0x2000, 0x200A⟩, ⟨0x2028, 0x2029⟩, ⟨0x202F, 0x202F⟩, ⟨0x205F, 0x205F⟩,
   ⟨0x3000, 0x3000⟩]

/-- A code point of a blank or of a separator. -/
def Separates (n : Nat) : Prop := ∃ separator ∈ separators, separator.Holds n

/-- A separator lies before the surrogates. -/
theorem Separates.lt {n : Nat} (separates : Separates n) : n ≤ 0x3000 := by
  obtain ⟨separator, member, -, below⟩ := separates
  have bound : ∀ separator ∈ separators, separator.last ≤ 0x3000 := by decide
  exact Nat.le_trans below (bound separator member)

/-- Whether a range meets no separator; most ranges lie behind the last one. -/
def CodeRange.isClear (range : CodeRange) : Bool :=
  Nat.blt 0x3000 range.first || separators.all fun separator =>
    Nat.blt range.last separator.first || Nat.blt separator.last range.first

/-- The ranges hold no separator. -/
def Clear (ranges : List CodeRange) : Prop :=
  ∀ range ∈ ranges, ∀ n, Separates n → ¬ range.Holds n

theorem CodeRange.not_holds_of_isClear {range : CodeRange} (clear : range.isClear = true) {n : Nat}
    (separates : Separates n) : ¬ range.Holds n := by
  rintro ⟨above, below⟩
  rw [isClear, Bool.or_eq_true, Nat.blt_eq, List.all_eq_true] at clear
  rcases clear with behind | apart
  · have bound := separates.lt
    omega
  · obtain ⟨separator, member, inside, upTo⟩ := separates
    have beside := apart separator member
    simp only [Bool.or_eq_true, Nat.blt_eq] at beside
    omega

theorem clear_of_all {ranges : List CodeRange} (all : ranges.all CodeRange.isClear = true) :
    Clear ranges := fun range member _ separates =>
  CodeRange.not_holds_of_isClear (List.all_eq_true.mp all range member) separates

/-- Ranges that are joined hold no more than they did: between two of them that touch there are at
most the surrogates. -/
theorem clear_join {current : CodeRange} {ranges : List CodeRange}
    (clear : Clear (current :: ranges)) : Clear (CodeRange.join current ranges) := by
  induction ranges generalizing current with
  | nil => exact clear
  | cons range rest ih =>
    obtain ⟨first, later⟩ := List.forall_mem_cons.mp clear
    obtain ⟨second, others⟩ := List.forall_mem_cons.mp later
    rw [CodeRange.join]
    split_ifs with touches
    · refine ih (List.forall_mem_cons.mpr ⟨?_, others⟩)
      rintro n separates ⟨above, below⟩
      have outside : ¬ (current.first ≤ n ∧ n ≤ current.last) := first n separates
      have outsideNext : ¬ (range.first ≤ n ∧ n ≤ range.last) := second n separates
      have bound := separates.lt
      unfold CodeRange.following at touches
      simp only at above below
      split_ifs at touches <;> omega
    · exact List.forall_mem_cons.mpr ⟨first, ih (List.forall_mem_cons.mpr ⟨second, others⟩)⟩

/-! ### Sets -/

namespace CharSet

/-- The set holds no separator. -/
def Clear (set : CharSet) : Prop := Text.Clear set.ranges.toList

theorem clear_joinAll {ranges : List CodeRange} (clear : Text.Clear ranges) :
    Clear ⟨(CodeRange.joinAll ranges).toArray⟩ := by
  cases ranges with
  | nil => exact clear
  | cons range rest => exact clear_join clear

theorem clear_ofRanges {ranges : List CodeRange} (clear : Text.Clear ranges) :
    (ofRanges ranges).Clear :=
  clear_joinAll fun range member => clear range (List.mem_mergeSort.mp member)

theorem Clear.union {a b : CharSet} (first : a.Clear) (second : b.Clear) : (a.union b).Clear :=
  clear_joinAll fun range member => (List.mem_merge.mp member).elim (first range) (second range)

theorem clear_unionAll {sets : List CharSet} (clear : ∀ set ∈ sets, set.Clear) :
    (unionAll sets).Clear := by
  refine clear_ofRanges fun range member => ?_
  obtain ⟨set, isSet, inside⟩ := List.mem_flatMap.mp member
  exact clear set isSet range inside

/-- The search in a set finds only what one of its ranges holds. -/
theorem holds_of_covers {ranges : Array CodeRange} {n low high : Nat}
    (found : covers ranges n low high = true) : ∃ range ∈ ranges.toList, range.Holds n := by
  fun_induction covers ranges n low high with
  | case1 => cases found
  | case2 low high _ middle range isMiddle before ih => exact ih found
  | case3 low high _ middle range isMiddle notBefore behind ih => exact ih found
  | case4 low high _ middle range isMiddle notBefore notBehind =>
    refine ⟨range, ?_, Nat.le_of_not_lt notBefore, Nat.le_of_not_lt notBehind⟩
    exact Array.mem_toList_iff.mpr (Array.mem_of_getElem? isMiddle)
  | case5 => cases found

theorem Clear.contains {set : CharSet} (clear : set.Clear) {c : Char}
    (separates : Separates c.toNat) : set.contains c = false := by
  cases found : set.contains c with
  | false => rfl
  | true =>
    obtain ⟨range, member, holds⟩ := holds_of_covers found
    exact absurd holds (clear range member _ separates)

end CharSet

/-! ### Tables -/

/-- The characters of some lines. -/
inductive Spells : List String → List (List Char) → Prop
  | nil : Spells [] []
  | cons {line : List Char} {lines : List String} {rest : List (List Char)}
      (later : Spells lines rest) : Spells (String.ofList line :: lines) (line :: rest)

namespace Spells

variable {lines : List String} {chars : List (List Char)}

theorem map_toList (spells : Spells lines chars) : lines.map String.toList = chars := by
  induction spells with
  | nil => rfl
  | cons later ih => rw [List.map_cons, String.toList_ofList, ih]

/-- What a check of the characters finds holds of the table. -/
theorem clear_ofTable (spells : Spells lines chars)
    (check : (CharSet.readTable none 0 ([' '].intercalate chars)).all CodeRange.isClear = true) :
    (CharSet.ofTable lines).Clear := by
  refine CharSet.clear_ofRanges (clear_of_all ?_)
  have whole : (String.intercalate " " lines).toList = [' '].intercalate chars := by
    rw [← spells.map_toList]
    simp
  rwa [whole]

theorem all_ofTable (spells : Spells lines chars) {check : Run → Bool}
    (all : (Run.read 0 0 [] chars.flatten).all check = true) :
    (Run.ofTable lines).all check = true := by
  have whole : (String.join lines).toList = chars.flatten := by
    rw [← spells.map_toList, String.toList_join, List.flatMap_def]
  rwa [Run.ofTable, whole]

end Spells

/-- The labels of letters and numbers. -/
def alphanumericLabels : List String := (Category.letters ++ Category.numbers).map Category.code

set_option maxRecDepth 4000 in
/-- No run of letters or numbers meets a separator. -/
theorem runs_clear : Category.runs.all (fun run =>
    run.range.isClear || !alphanumericLabels.contains run.label) = true := by
  unfold Category.runs
  apply Spells.all_ofTable
  · repeat' constructor
  · decide +kernel

theorem clear_setOf {categories : List Category}
    (listed : categories ⊆ Category.letters ++ Category.numbers) :
    (Category.setOf categories).Clear := by
  refine CharSet.clear_ofRanges fun range member => ?_
  obtain ⟨run, inside, rfl⟩ := List.mem_map.mp member
  obtain ⟨isRun, labelled⟩ := List.mem_filter.mp inside
  have known : alphanumericLabels.contains run.label = true := by
    rw [List.contains_iff_mem] at labelled ⊢
    exact List.map_subset Category.code listed labelled
  have clear := List.all_eq_true.mp runs_clear run isRun
  rw [known, Bool.not_true, Bool.or_false] at clear
  exact fun n separates => CodeRange.not_holds_of_isClear clear separates

set_option maxRecDepth 4000 in
/-- The listed letters and numbers are no separators. -/
theorem tables_clear : ∀ set ∈ [Property.otherLowercase, Property.otherUppercase,
    Property.otherAlphabetic, addedAlphabetic, addedNumbers], set.Clear := by
  simp only [List.forall_mem_cons]
  refine ⟨?_, ?_, ?_, ?_, ?_, nofun⟩
  all_goals
    apply Spells.clear_ofTable
    · repeat' constructor
    · decide +kernel

/-- Letters and numbers are neither blanks nor separators. -/
theorem alphanumeric_clear : alphanumeric.Clear := by
  have tables := tables_clear
  simp only [List.forall_mem_cons] at tables
  obtain ⟨otherLowercase, otherUppercase, otherAlphabetic, addedAlphabetic, addedNumbers, -⟩ :=
    tables
  have lowercase : Property.lowercase.Clear := (clear_setOf (by decide)).union otherLowercase
  have uppercase : Property.uppercase.Clear := (clear_setOf (by decide)).union otherUppercase
  have listed : Property.alphabetic.Clear := by
    refine CharSet.clear_unionAll ?_
    simp only [List.forall_mem_cons]
    exact ⟨lowercase, uppercase, clear_setOf (by decide), clear_setOf (by decide),
      otherAlphabetic, nofun⟩
  refine CharSet.clear_unionAll ?_
  simp only [List.forall_mem_cons]
  exact ⟨listed.union addedAlphabetic, clear_setOf (by decide), addedNumbers, nofun⟩

/-- A blank is one of the separators. -/
theorem separates_of_isBlank {c : Char} (blank : isBlank c = true) : Separates c.toNat := by
  unfold isBlank at blank
  simp only [Bool.or_eq_true, Bool.and_eq_true, decide_eq_true_eq, beq_iff_eq] at blank
  simp only [Separates, separators, List.mem_cons, List.not_mem_nil, or_false, exists_eq_or_imp,
    exists_eq_left, CodeRange.Holds]
  omega

end GraphValidation.Text

namespace GraphValidation.TypeRef

theorem isNameChar_of_separates {c : Char} (separates : Text.Separates c.toNat) :
    isNameChar c = false := by
  have signs : c ≠ '_' ∧ c ≠ '.' ∧ c ≠ '$' := by
    have notSigns : ¬ Text.Separates '_'.toNat ∧ ¬ Text.Separates '.'.toNat
        ∧ ¬ Text.Separates '$'.toNat := by
      simp [Text.Separates, Text.separators, Text.CodeRange.Holds]
    refine ⟨?_, ?_, ?_⟩
    · rintro rfl
      exact notSigns.1 separates
    · rintro rfl
      exact notSigns.2.1 separates
    · rintro rfl
      exact notSigns.2.2 separates
  have noLetter : Text.isAlphanumeric c = false := Text.alphanumeric_clear.contains separates
  simp [isNameChar, noLetter, signs]

/-- **Blanks are no characters of names.** -/
theorem isNameChar_of_isBlank {c : Char} (blank : Text.isBlank c = true) : isNameChar c = false :=
  isNameChar_of_separates (Text.separates_of_isBlank blank)

/-- **Commas and angle brackets are no characters of names.** -/
theorem isNameChar_separators :
    isNameChar '<' = false ∧ isNameChar '>' = false ∧ isNameChar ',' = false := by
  refine ⟨isNameChar_of_separates ?_, isNameChar_of_separates ?_, isNameChar_of_separates ?_⟩
  · exact ⟨⟨0x3C, 0x3C⟩, by decide, by decide, by decide⟩
  · exact ⟨⟨0x3E, 0x3E⟩, by decide, by decide, by decide⟩
  · exact ⟨⟨0x2C, 0x2C⟩, by decide, by decide, by decide⟩

end GraphValidation.TypeRef
