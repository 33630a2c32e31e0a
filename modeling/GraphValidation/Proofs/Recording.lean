/-
**What results record.**

Results hold the violations that they have been given and, beside them, three indexes of positions:
by the key under which equal violations are searched, by template, and by bean and property.  A
violation is compared with those of its key only, and lookups go by the positions.  Both find what a
search through all violations would find, because each index lists, under each of its keys, exactly
the positions at which a violation with that key stands, and because equal violations have one key.

* `Violation.distinct` — violations without those that are equal to an earlier one that is kept.
* `ValidationResults.Indexed`, `ValidationResults.Indexed.add` — the indexes are in step with the
  violations, and stay so.
* `Recording` — the calls that results come from, those of merged results included.
* `Recording.results_record` — **what results record**.
-/
import Mathlib.Data.List.Basic
import Mathlib.Data.List.Induction
import Mathlib.Data.List.Triplewise
import GraphValidation.Proofs.Equality

namespace GraphValidation

/-! ### Distinct violations -/

namespace Violation

variable {violation other : Violation} {kept arrivals : List Violation}

/-- The violations that are kept, with one more unless one of them is equal to it. -/
def keep (kept : List Violation) (violation : Violation) : List Violation :=
  if kept.any (·.equal violation) then kept else kept ++ [violation]

/-- Violations without those that are equal to an earlier one that is kept. -/
def distinct (arrivals : List Violation) : List Violation := arrivals.foldl keep []

theorem keep_of_equal (member : other ∈ kept) (same : other.equal violation) :
    keep kept violation = kept :=
  if_pos (List.any_eq_true.mpr ⟨other, member, same⟩)

theorem keep_of_new (new : ∀ other ∈ kept, ¬ other.equal violation) :
    keep kept violation = kept ++ [violation] := by
  refine if_neg fun known => ?_
  obtain ⟨other, member, same⟩ := List.any_eq_true.mp known
  exact new other member same

theorem mem_keep_of_mem (member : other ∈ kept) : other ∈ keep kept violation := by
  unfold keep
  split
  · exact member
  · exact List.mem_append_left _ member

/-- A violation is kept, unless an equal one was there. -/
theorem exists_mem_keep (kept : List Violation) (violation : Violation) :
    ∃ other ∈ keep kept violation, other = violation ∨ other.equal violation := by
  by_cases known : ∃ other ∈ kept, other.equal violation
  · obtain ⟨other, member, same⟩ := known
    exact ⟨other, mem_keep_of_mem member, .inr same⟩
  · rw [keep_of_new fun other member same => known ⟨other, member, same⟩]
    exact ⟨violation, by simp, .inl rfl⟩

/-- Each arrival is kept, unless an equal one was there. -/
theorem exists_mem_foldl_keep (kept : List Violation) (member : violation ∈ arrivals) :
    ∃ other ∈ arrivals.foldl keep kept, other = violation ∨ other.equal violation := by
  induction arrivals using List.reverseRecOn with
  | nil => cases member
  | append_singleton earlier last ih =>
    rw [List.foldl_append, List.foldl_cons, List.foldl_nil]
    rcases List.mem_append.mp member with before | isLast
    · obtain ⟨other, inside, same⟩ := ih before
      exact ⟨other, mem_keep_of_mem inside, same⟩
    · rw [List.mem_singleton.mp isLast]
      exact exists_mem_keep _ last

/-- It makes no difference whether arrivals have been reduced to the distinct ones before. -/
theorem foldl_keep_distinct (kept arrivals : List Violation) :
    (distinct arrivals).foldl keep kept = arrivals.foldl keep kept := by
  induction arrivals using List.reverseRecOn with
  | nil => rfl
  | append_singleton earlier last ih =>
    have split : distinct (earlier ++ [last]) = keep (distinct earlier) last := by
      rw [distinct, List.foldl_append, List.foldl_cons, List.foldl_nil, distinct]
    rw [split, List.foldl_append, List.foldl_cons, List.foldl_nil]
    by_cases known : ∃ other ∈ distinct earlier, other.equal last
    · -- What was equal to the last one is kept, or is itself equal to what is kept.
      obtain ⟨other, member, same⟩ := known
      obtain ⟨held, inside, alike⟩ := exists_mem_foldl_keep kept member
      have equal : held.equal last := alike.elim (fun here => here ▸ same) (equal_trans · same)
      rw [keep_of_equal member same, ih]
      exact (keep_of_equal (ih ▸ inside) equal).symm
    · rw [keep_of_new fun other member same => known ⟨other, member, same⟩, List.foldl_append, ih]
      rfl

theorem distinct_append (earlier later : List Violation) :
    distinct (earlier ++ later) = later.foldl keep (distinct earlier) := List.foldl_append

end Violation

/-! ### Indexes -/

/-- What stands at the positions that satisfy a condition. -/
theorem filterMap_findIdxs {α : Type} (holds : α → Bool) (items : List α) :
    (items.findIdxs holds).filterMap (items[·]?) = items.filter holds := by
  induction items using List.reverseRecOn with
  | nil => rfl
  | append_singleton items item ih =>
    have earlier : (items.findIdxs holds).filterMap ((items ++ [item])[·]?)
        = (items.findIdxs holds).filterMap (items[·]?) := by
      refine List.filterMap_congr fun position inside => ?_
      obtain ⟨within, -⟩ := List.mem_findIdxs_iff_exists_getElem_pos.mp inside
      exact List.getElem?_append_left within
    rw [List.findIdxs_append, List.filterMap_append, earlier, ih, List.filter_append]
    by_cases here : holds item <;> simp [here]

theorem findIdxs_concat {α : Type} (holds : α → Bool) (items : List α) (item : α) :
    (items ++ [item]).findIdxs holds
      = if holds item then items.findIdxs holds ++ [items.length] else items.findIdxs holds := by
  rw [List.findIdxs_append]
  by_cases here : holds item <;> simp [here]

/-- An index that lists the positions of items under their keys does so after one more item. -/
theorem entryAt_record {α κ : Type} [DecidableEq κ] {index : List (κ × List Nat)} {items : List α}
    {under : α → κ}
    (indexed : ∀ key, entryAt [] index key = items.findIdxs (under · = key)) (item : α) (key : κ) :
    entryAt [] (changeEntry (under item) [] (· ++ [items.length]) index) key
      = (items ++ [item]).findIdxs (under · = key) := by
  rw [entryAt_changeEntry, indexed, findIdxs_concat]
  by_cases here : under item = key
  · simp [here]
  · simp [here, Ne.symm here]

namespace ValidationResults

variable {results other : ValidationResults} {violation : Violation} {violations : List Violation}

/-- The indexes are in step with the violations. -/
structure Indexed (results : ValidationResults) : Prop where
  seen : ∀ key, entryAt [] results.seen key = results.violations.findIdxs (·.key = key)
  reasons : ∀ template,
    entryAt [] results.reasons template = results.violations.findIdxs (·.template = template)
  owners : ∀ owner property, entryAt [] (entryAt [] results.owners owner) property
    = results.violations.findIdxs fun violation =>
        violation.owner? = owner ∧ violation.property = property

theorem lookup_findIdxs (results : ValidationResults) (holds : Violation → Bool) :
    results.lookup (results.violations.findIdxs holds) = results.violations.filter holds :=
  filterMap_findIdxs holds results.violations

namespace Indexed

theorem blank : empty.Indexed := ⟨fun _ => rfl, fun _ => rfl, fun _ _ => rfl⟩

/-- **An equal violation is found among those of its key.** -/
theorem isKnown_iff (indexed : results.Indexed) :
    results.isKnown violation ↔ ∃ kept ∈ results.violations, kept.equal violation := by
  have found : results.isKnown violation
      = (results.lookup (entryAt [] results.seen violation.key)).any (·.equal violation) := by
    rw [lookup, List.any_filterMap, isKnown]
    refine congrArg _ (funext fun position => ?_)
    cases results.violations[position]? <;> rfl
  rw [found, indexed.seen, lookup_findIdxs, List.any_filter, List.any_eq_true]
  refine exists_congr fun kept => and_congr_right fun _ => ?_
  rw [Bool.and_eq_true, decide_eq_true_iff]
  exact and_iff_right_of_imp Violation.key_eq_of_equal

theorem add_of_known (known : results.isKnown violation) : results.add violation = results :=
  if_pos known

/-- **One more violation leaves the indexes in step.** -/
theorem add (indexed : results.Indexed) (violation : Violation) :
    (results.add violation).Indexed := by
  by_cases known : results.isKnown violation
  · rw [add_of_known known]
    exact indexed
  · rw [ValidationResults.add, if_neg known]
    refine ⟨entryAt_record indexed.seen violation, entryAt_record indexed.reasons violation, ?_⟩
    intro owner property
    rw [entryAt_changeEntry, findIdxs_concat, ← indexed.owners]
    by_cases here : owner = violation.owner?
    · subst here
      rw [if_pos BEq.rfl, entryAt_changeEntry]
      by_cases there : violation.property = property
      · simp [there]
      · simp [there, Ne.symm there]
    · rw [if_neg (by simpa using here), if_neg]
      simp [Ne.symm here]

/-- One more violation is kept unless an equal one is. -/
theorem violations_add (indexed : results.Indexed) (violation : Violation) :
    (results.add violation).violations = Violation.keep results.violations violation := by
  by_cases known : results.isKnown violation
  · obtain ⟨kept, member, same⟩ := indexed.isKnown_iff.mp known
    rw [add_of_known known, Violation.keep_of_equal member same]
  · rw [ValidationResults.add, if_neg known, Violation.keep_of_new]
    exact fun kept member same => known (indexed.isKnown_iff.mpr ⟨kept, member, same⟩)

/-- More violations leave the indexes in step, and are kept one after the other. -/
theorem addAll (indexed : results.Indexed) (violations : List Violation) :
    (results.addAll violations).Indexed
      ∧ (results.addAll violations).violations
        = violations.foldl Violation.keep results.violations := by
  induction violations generalizing results with
  | nil => exact ⟨indexed, rfl⟩
  | cons violation rest ih =>
    rw [List.foldl_cons, ← indexed.violations_add]
    exact ih (indexed.add violation)

end Indexed

end ValidationResults

/-! ### Recordings -/

/-- The calls that results come from. -/
inductive Recording where
  | blank
  | added (earlier : Recording) (violation : Violation)
  | merged (earlier other : Recording)

namespace Recording

/-- The results after all calls. -/
def results : Recording → ValidationResults
  | blank => .empty
  | added earlier violation => earlier.results.add violation
  | merged earlier other => earlier.results.merge other.results

/-- All violations that have been added, in the order of their arrival. -/
def arrivals : Recording → List Violation
  | blank => []
  | added earlier violation => earlier.arrivals ++ [violation]
  | merged earlier other => earlier.arrivals ++ other.arrivals

/-- Whatever has been called, the indexes are in step, and the distinct violations are kept. -/
theorem results_indexed (recording : Recording) :
    recording.results.Indexed
      ∧ recording.results.violations = Violation.distinct recording.arrivals := by
  induction recording with
  | blank => exact ⟨.blank, rfl⟩
  | added earlier violation ih =>
    obtain ⟨indexed, kept⟩ := ih
    refine ⟨indexed.add violation, ?_⟩
    rw [results, arrivals, indexed.violations_add, kept, Violation.distinct_append]
    rfl
  | merged earlier other ih ihOther =>
    obtain ⟨indexed, kept⟩ := ih
    obtain ⟨onward, grown⟩ := indexed.addAll other.results.violations
    refine ⟨onward, grown.trans ?_⟩
    rw [kept, ihOther.2, arrivals, Violation.foldl_keep_distinct, Violation.distinct_append]

end Recording

/-- Results record violations that have arrived in an order. -/
structure ValidationResults.Records (results : ValidationResults) (arrivals : List Violation) :
    Prop where
  /-- Of the arrivals those are kept that are not equal to an earlier one that is kept. -/
  violations : results.violations = Violation.distinct arrivals
  /-- Lookups find all violations that they ask for, in order. -/
  byReason : ∀ template,
    results.byReason template = results.violations.filter (·.template = template)
  byOwnerProperty : ∀ owner property, results.byOwnerProperty owner property
    = results.violations.filter fun violation =>
        violation.owner? = owner ∧ violation.property = property
  forProperty : ∀ property,
    results.forProperty property = results.violations.filter (·.property = some property)
  /-- There is a violation at each position that is searched or looked up. -/
  seen_lt : ∀ key, ∀ position ∈ entryAt [] results.seen key, position < results.size
  reasons_lt : ∀ template, ∀ position ∈ entryAt [] results.reasons template,
    position < results.size
  owners_lt : ∀ owner property, ∀ position ∈ entryAt [] (entryAt [] results.owners owner) property,
    position < results.size

theorem lt_of_mem_findIdxs {α : Type} {holds : α → Bool} {items : List α} {position : Nat}
    (member : position ∈ items.findIdxs holds) : position < items.length :=
  (List.mem_findIdxs_iff_exists_getElem_pos.mp member).1

/-- **What results record**, whatever has been added to them and merged into them: the distinct
violations in the order of their arrival, and the indexes by which they are looked up. -/
theorem Recording.results_record (recording : Recording) :
    recording.results.Records recording.arrivals := by
  obtain ⟨indexed, kept⟩ := recording.results_indexed
  constructor
  · exact kept
  · intro template
    rw [ValidationResults.byReason, indexed.reasons, ValidationResults.lookup_findIdxs]
  · intro owner property
    rw [ValidationResults.byOwnerProperty, indexed.owners, ValidationResults.lookup_findIdxs]
  · exact fun property => List.filter_congr fun violation _ => beq_eq_decide _ _
  · exact fun key position member => lt_of_mem_findIdxs (indexed.seen key ▸ member)
  · exact fun template position member => lt_of_mem_findIdxs (indexed.reasons template ▸ member)
  · exact fun owner property position member =>
      lt_of_mem_findIdxs (indexed.owners owner property ▸ member)

end GraphValidation
