/-
**What is recorded twice.**

Results keep a violation once, as far as it can be recognized when it comes again: it is compared
with those that are kept, and a violation that holds a NaN equals none, itself included.  So adding
a violation again changes nothing exactly if it holds no NaN, and results that are merged into
themselves repeat the violations with a NaN and nothing else.

* `Violation.foldl_keep_members` — adding again what is kept repeats the violations with a NaN.
* `Recording.records_once` — **when recording again changes nothing**.
* `ValidationResults.add_repeats` — one violation with a NaN, recorded twice.
-/
import Mathlib.Tactic.ByContra
import GraphValidation.Proofs.Recording
import GraphValidation.Proofs.SelfEquality

namespace GraphValidation

namespace Violation

variable {violation : Violation} {kept arrivals later : List Violation}

/-- What is kept has arrived. -/
theorem distinct_subset (arrivals : List Violation) : distinct arrivals ⊆ arrivals := by
  induction arrivals using List.reverseRecOn with
  | nil => exact List.Subset.refl _
  | append_singleton earlier last ih =>
    have before : distinct earlier ⊆ earlier ++ [last] :=
      List.Subset.trans ih (List.subset_append_left _ _)
    rw [distinct_append, List.foldl_cons, List.foldl_nil, keep]
    split
    · exact before
    · exact List.append_subset.mpr ⟨before, List.subset_append_right _ _⟩

/-- A violation with a NaN is not recognized, any other one that is kept is. -/
theorem keep_again (keyed : ∀ other ∈ kept, other.keyed) (isKeyed : violation.keyed)
    (again : violation.hasNaN = false → violation ∈ kept) :
    keep kept violation = kept ++ [violation].filter (·.hasNaN) := by
  cases isNaN : violation.hasNaN with
  | false =>
    rw [keep_of_equal (again isNaN) (equal_self_of_number isKeyed isNaN)]
    simp [isNaN]
  | true =>
    have new : ∀ other ∈ kept, ¬ other.equal violation := fun other member same =>
      absurd (hasNaN_of_equal (keyed other member) isKeyed same) (by simp [isNaN])
    rw [keep_of_new new]
    simp [isNaN]

/-- **Adding again what is kept repeats the violations with a NaN**, and nothing else. -/
theorem foldl_keep_members (keyed : ∀ other ∈ kept, other.keyed) (again : later ⊆ kept) :
    later.foldl keep kept = kept ++ later.filter (·.hasNaN) := by
  induction later using List.reverseRecOn with
  | nil => exact (List.append_nil kept).symm
  | append_singleton earlier last ih =>
    obtain ⟨before, isLast⟩ := List.append_subset.mp again
    have member : last ∈ kept := isLast List.mem_cons_self
    have grown : ∀ other ∈ kept ++ earlier.filter (·.hasNaN), other.keyed := by
      intro other inside
      refine keyed other ((List.mem_append.mp inside).elim id fun repeated => ?_)
      exact before (List.mem_filter.mp repeated).1
    rw [List.foldl_append, List.foldl_cons, List.foldl_nil, ih before,
      keep_again grown (keyed last member) fun _ => List.mem_append_left _ member,
      List.filter_append, List.append_assoc]

end Violation

namespace ValidationResults

variable {results : ValidationResults} {violation : Violation} {violations : List Violation}

/-- Violations that are known leave the results as they are. -/
theorem addAll_of_known (known : ∀ violation ∈ violations, results.isKnown violation) :
    results.addAll violations = results := by
  induction violations with
  | nil => rfl
  | cons violation rest ih =>
    obtain ⟨here, later⟩ := List.forall_mem_cons.mp known
    rw [addAll, List.foldl_cons, Indexed.add_of_known here]
    exact ih later

namespace Indexed

/-- A violation without a NaN is recognized, once it was added. -/
theorem isKnown_add (indexed : results.Indexed) (isKeyed : violation.keyed)
    (number : violation.hasNaN = false) : (results.add violation).isKnown violation := by
  obtain ⟨kept, member, alike⟩ := Violation.exists_mem_keep results.violations violation
  rw [← indexed.violations_add] at member
  refine (indexed.add violation).isKnown_iff.mpr ⟨kept, member, ?_⟩
  rcases alike with rfl | equal
  · exact Violation.equal_self_of_number isKeyed number
  · exact equal

/-- A violation without a NaN is recognized when it is kept. -/
theorem isKnown_of_mem (indexed : results.Indexed) (isKeyed : violation.keyed)
    (number : violation.hasNaN = false) (member : violation ∈ results.violations) :
    results.isKnown violation :=
  indexed.isKnown_iff.mpr ⟨violation, member, Violation.equal_self_of_number isKeyed number⟩

/-- A violation with a NaN is kept, whatever is there. -/
theorem violations_add_nan (indexed : results.Indexed)
    (keyed : ∀ kept ∈ results.violations, kept.keyed) (isKeyed : violation.keyed)
    (isNaN : violation.hasNaN) :
    (results.add violation).violations = results.violations ++ [violation] := by
  rw [indexed.violations_add, Violation.keep_again keyed isKeyed (by simp [isNaN]),
    List.filter_singleton, isNaN, cond_true]

/-- **A violation with a NaN is kept each time**, and any other one once. -/
theorem add_add_iff (indexed : results.Indexed)
    (keyed : ∀ kept ∈ results.violations, kept.keyed) (isKeyed : violation.keyed) :
    (results.add violation).add violation = results.add violation
      ↔ violation.hasNaN = false := by
  refine ⟨fun unchanged => ?_, fun number => add_of_known (indexed.isKnown_add isKeyed number)⟩
  by_contra isNaN
  rw [Bool.not_eq_false] at isNaN
  have once := indexed.violations_add_nan keyed isKeyed isNaN
  have keyedOnce : ∀ kept ∈ (results.add violation).violations, kept.keyed := by
    rw [once]
    exact List.forall_mem_append.mpr ⟨keyed, List.forall_mem_singleton.mpr isKeyed⟩
  have twice := (indexed.add violation).violations_add_nan keyedOnce isKeyed isNaN
  rw [unchanged, List.self_eq_append_right] at twice
  cases twice

/-- **Results merged into themselves repeat the violations with a NaN**, and nothing else. -/
theorem violations_merge_self (indexed : results.Indexed)
    (keyed : ∀ kept ∈ results.violations, kept.keyed) :
    (results.merge results).violations
      = results.violations ++ results.violations.filter (·.hasNaN) :=
  (indexed.addAll results.violations).2.trans
    (Violation.foldl_keep_members keyed (List.Subset.refl _))

theorem merge_self_iff (indexed : results.Indexed)
    (keyed : ∀ kept ∈ results.violations, kept.keyed) :
    results.merge results = results ↔ ∀ kept ∈ results.violations, kept.hasNaN = false := by
  constructor
  · intro unchanged
    have repeated := indexed.violations_merge_self keyed
    rw [unchanged, List.self_eq_append_right, List.filter_eq_nil_iff] at repeated
    exact fun kept member => Bool.eq_false_iff.mpr (repeated kept member)
  · exact fun numbers => addAll_of_known fun kept member =>
      indexed.isKnown_of_mem (keyed kept member) (numbers kept member) member

end Indexed

end ValidationResults

/-- **When recording again changes nothing.**  Whatever results come from, adding a violation a
second time changes nothing exactly if it holds no NaN, at whatever depth; and merging results into
themselves repeats those with a NaN, so that it changes nothing exactly if there are none. -/
theorem Recording.records_once (recording : Recording) (violation : Violation)
    (arrived : ∀ arrival ∈ recording.arrivals, arrival.keyed) (isKeyed : violation.keyed) :
    ((recording.results.add violation).add violation = recording.results.add violation
        ↔ violation.hasNaN = false)
      ∧ (recording.results.merge recording.results = recording.results
        ↔ ∀ kept ∈ recording.results.violations, kept.hasNaN = false)
      ∧ (recording.results.merge recording.results).violations
        = recording.results.violations ++ recording.results.violations.filter (·.hasNaN) := by
  obtain ⟨indexed, kept⟩ := recording.results_indexed
  have keyed : ∀ kept ∈ recording.results.violations, kept.keyed := by
    rw [kept]
    exact fun other member => arrived other (Violation.distinct_subset _ member)
  exact ⟨indexed.add_add_iff keyed isKeyed, indexed.merge_self_iff keyed,
    indexed.violations_merge_self keyed⟩

/-- What is found in a measured value. -/
def Violation.ofMeasure (value : Value) : Violation where
  path := .ofProperty "weight"
  message := "must be positive"
  template := "{Positive.message}"
  rootType := some ⟨"Parcel"⟩
  leafBean := some ⟨"parcel", ⟨"Parcel"⟩⟩
  property := some "weight"
  invalid := value
  constraint := some (.mk "Positive" ⟨[("unit", .string "kg"), ("step", .float .zero)]⟩
    [.defaultGroup] [] "{Positive.message}" false [])

/-- Two measures, one of them a map, and what has been merged from another one. -/
def measures : Recording :=
  .merged
    (.added (.added .blank (.ofMeasure (.float .zero)))
      (.ofMeasure (.map [(.string "net", .float .zero), (.int 7, .list [.int 0])])))
    (.added .blank (.ofMeasure (.float .zero)))

/-- Measures without a NaN are recorded once. -/
theorem Recording.records_once_measures :
    (measures.results.add (.ofMeasure (.set [.null]))).add (.ofMeasure (.set [.null]))
        = measures.results.add (.ofMeasure (.set [.null]))
      ∧ measures.results.merge measures.results = measures.results := by
  have once := Recording.records_once measures (.ofMeasure (.set [.null]))
    (by decide +kernel) (by decide +kernel)
  exact ⟨once.1.mpr (by decide +kernel), once.2.1.mpr (by decide +kernel)⟩

/-- The results of a measure that is not a number. -/
def unmeasured : ValidationResults := ValidationResults.empty.add (.ofMeasure (.float .nan))

/-- **One violation with a NaN is kept twice**, and results that hold it grow by it when they are
merged into themselves. -/
theorem ValidationResults.add_repeats :
    unmeasured.add (.ofMeasure (.float .nan)) ≠ unmeasured
      ∧ unmeasured.merge unmeasured ≠ unmeasured := by
  have once : unmeasured.size = 1 := by decide +kernel
  have twice : (unmeasured.add (.ofMeasure (.float .nan))).size = 2 := by decide +kernel
  have merged : (unmeasured.merge unmeasured).size = 2 := by decide +kernel
  constructor
  · intro same
    rw [same, once] at twice
    cases twice
  · intro same
    rw [same, once] at merged
    cases merged

end GraphValidation
