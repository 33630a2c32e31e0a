/-
**Which validator is chosen for a type.**

Of the candidates of a constraint those apply whose type admits values of the validated type, and an
applicable one is dropped when another one is for a strictly more specific type.  The choice is made
if one candidate is left.  Since more specific types are below in an order, each applicable
candidate has one below it that is left; so none is left only if none applies, and a single one that
is left is below all others.

* `ConstraintDefinition.Chosen` — a candidate applies, and is for a strictly more specific type than
  every other one that applies.
* `ConstraintDefinition.Finest` — no candidate that applies is for a strictly more specific type.
* `ConstraintDefinition.resolve_registered` — **how a validator is chosen, whatever types have been
  registered**.
-/
import GraphValidation.Proofs.Specificity

namespace GraphValidation

namespace ConstraintDefinition

variable {types : TypeSystem} {definition other : ConstraintDefinition} {target : TypeKey}
  {candidate : Candidate}

/-- A candidate applies, and is for a strictly more specific type than every other one that
applies. -/
def Chosen (types : TypeSystem) (definition : ConstraintDefinition) (target : TypeKey)
    (candidate : Candidate) : Prop :=
  ∃ before after, definition.validators = before ++ candidate :: after
    ∧ types.isAssignable candidate.supported target
    ∧ ∀ other ∈ before ++ after, types.isAssignable other.supported target →
        types.Refines candidate.supported other.supported

/-- A candidate applies, and none that applies is for a strictly more specific type. -/
def Finest (types : TypeSystem) (definition : ConstraintDefinition) (target : TypeKey)
    (candidate : Candidate) : Prop :=
  types.isAssignable candidate.supported target
    ∧ ∀ other ∈ definition.validators, types.isAssignable other.supported target →
        ¬ types.Refines other.supported candidate.supported

instance (types : TypeSystem) (definition : ConstraintDefinition) (target : TypeKey)
    (candidate : Candidate) : Decidable (Finest types definition target candidate) :=
  inferInstanceAs (Decidable (_ ∧ _))

/-! ### What is left -/

theorem mem_applicable : candidate ∈ definition.applicable types target
    ↔ candidate ∈ definition.validators ∧ types.isAssignable candidate.supported target :=
  List.mem_filter

/-- A candidate is outdone by one that is for a strictly more specific type. -/
theorem isOutdone_iff {candidates : List Candidate} : isOutdone types candidates candidate
    ↔ ∃ other ∈ candidates, types.Refines other.supported candidate.supported := by
  simp only [isOutdone, List.any_eq_true, Bool.and_eq_true, bne_iff_ne, TypeSystem.Refines]

/-- The finest candidates are left, in order. -/
theorem mostSpecific_eq (types : TypeSystem) (definition : ConstraintDefinition)
    (target : TypeKey) : definition.mostSpecific types target
      = definition.validators.filter (Finest types definition target ·) := by
  unfold mostSpecific applicable
  rw [List.filter_filter]
  refine List.filter_congr fun candidate _ => ?_
  rw [Bool.eq_iff_iff, Bool.and_eq_true, Bool.not_eq_true', ← Bool.not_eq_true, isOutdone_iff,
    decide_eq_true_iff, Finest, and_comm]
  refine and_congr_right fun _ => ?_
  simp only [List.mem_filter, not_exists, not_and, and_imp]

section Order

variable (summit : types.parents .object = [])

include summit

/-- For each candidate that applies, one is left that is for the same or a more specific type. -/
theorem exists_finest (member : candidate ∈ definition.validators)
    (applies : types.isAssignable candidate.supported target) :
    ∃ finest ∈ definition.validators, Finest types definition target finest
      ∧ types.isAssignable candidate.supported finest.supported := by
  have supported : candidate.supported ∈ (definition.applicable types target).map (·.supported) :=
    List.mem_map_of_mem (mem_applicable.mpr ⟨member, applies⟩)
  obtain ⟨_, inside, below, unrefined⟩ := TypeSystem.exists_unrefined summit supported
  obtain ⟨finest, isApplicable, rfl⟩ := List.mem_map.mp inside
  obtain ⟨isCandidate, appliesToo⟩ := mem_applicable.mp isApplicable
  refine ⟨finest, isCandidate, ⟨appliesToo, fun other isOther otherApplies => ?_⟩, below⟩
  exact unrefined _ (List.mem_map_of_mem (mem_applicable.mpr ⟨isOther, otherApplies⟩))

/-- None is left only if none applies. -/
theorem mostSpecific_eq_nil : definition.mostSpecific types target = []
    ↔ ∀ candidate ∈ definition.validators, ¬ types.isAssignable candidate.supported target := by
  rw [mostSpecific_eq, List.filter_eq_nil_iff]
  simp only [decide_eq_true_iff]
  constructor
  · intro none candidate member applies
    obtain ⟨finest, inside, isFinest, -⟩ := exists_finest summit member applies
    exact none finest inside isFinest
  · exact fun none candidate member isFinest => none candidate member isFinest.1

/-- A single one that is left is for a more specific type than all others that apply. -/
theorem mostSpecific_eq_singleton : definition.mostSpecific types target = [candidate]
    ↔ Chosen types definition target candidate := by
  rw [mostSpecific_eq, List.filter_eq_cons_iff]
  simp only [List.filter_eq_nil_iff, decide_eq_true_iff]
  constructor
  · rintro ⟨before, after, split, noneBefore, isFinest, noneAfter⟩
    have others : ∀ other ∈ before ++ after, ¬ Finest types definition target other := by
      intro other inside
      exact (List.mem_append.mp inside).elim (noneBefore other) (noneAfter other)
    refine ⟨before, after, split, isFinest.1, fun other inside applies => ?_⟩
    have member : other ∈ definition.validators := by
      rw [split]
      simp only [List.mem_append, List.mem_cons] at inside ⊢
      tauto
    -- What is below the other one is the one that is left.
    obtain ⟨finest, isCandidate, isFinestToo, below⟩ := exists_finest summit member applies
    have same : finest = candidate := by
      rw [split] at isCandidate
      simp only [List.mem_append, List.mem_cons] at isCandidate
      by_contra differs
      exact others finest (by simp only [List.mem_append]; tauto) isFinestToo
    subst same
    refine ⟨fun equal => others other inside ?_, below⟩
    rw [Finest, ← equal]
    exact isFinest
  · rintro ⟨before, after, split, applies, refines⟩
    have outdone : ∀ other ∈ before ++ after, ¬ Finest types definition target other := by
      intro other inside isFinest
      have isCandidate : candidate ∈ definition.validators := by simp [split]
      exact isFinest.2 candidate isCandidate applies (refines other inside isFinest.1)
    refine ⟨before, after, split, ?_, ⟨applies, fun other member appliesToo => ?_⟩, ?_⟩
    · exact fun other inside => outdone other (List.mem_append_left _ inside)
    · rw [split] at member
      rcases List.mem_append.mp member with inside | inside
      · exact (refines other (List.mem_append_left _ inside) appliesToo).asymm summit
      · rcases List.mem_cons.mp inside with rfl | inside
        · exact fun refinesItself => refinesItself.1 rfl
        · exact (refines other (List.mem_append_right _ inside) appliesToo).asymm summit
    · exact fun other inside => outdone other (List.mem_append_right _ inside)

end Order

/-! ### Choices -/

/-- Two choices are the same, up to the order of the candidates that they name. -/
inductive SameChoice : Except ConfigError Candidate → Except ConfigError Candidate → Prop
  | chosen (candidate : Candidate) : SameChoice (.ok candidate) (.ok candidate)
  | none (constraint : String) (target : TypeKey) :
    SameChoice (.error (.noValidatorForType constraint target))
      (.error (.noValidatorForType constraint target))
  | ambiguous (constraint : String) (target : TypeKey) {names others : List String} :
    names.Perm others → SameChoice (.error (.ambiguousValidators constraint target names))
      (.error (.ambiguousValidators constraint target others))

/-- How a validator is chosen for a type. -/
structure Resolves (types : TypeSystem) (definition : ConstraintDefinition) (target : TypeKey) :
    Prop where
  chosen : ∀ candidate, definition.resolve types target = .ok candidate
    ↔ Chosen types definition target candidate
  none : definition.resolve types target = .error (.noValidatorForType definition.name target)
    ↔ ∀ candidate ∈ definition.validators, ¬ types.isAssignable candidate.supported target
  /-- In all other cases the finest candidates are named, in order. -/
  ambiguous : (∀ candidate, ¬ Chosen types definition target candidate) →
    (∃ candidate ∈ definition.validators, types.isAssignable candidate.supported target) →
    definition.resolve types target = .error (.ambiguousValidators definition.name target
      ((definition.validators.filter (Finest types definition target ·)).map (·.name)))
  /-- The order of the candidates matters for the order of the names only. -/
  permuted : ∀ other : ConstraintDefinition, other.name = definition.name →
    other.validators.Perm definition.validators →
    SameChoice (other.resolve types target) (definition.resolve types target)

theorem resolve_eq_ok : definition.resolve types target = .ok candidate
    ↔ definition.mostSpecific types target = [candidate] := by
  unfold resolve
  split <;> simp_all

theorem resolve_eq_none :
    definition.resolve types target = .error (.noValidatorForType definition.name target)
      ↔ definition.mostSpecific types target = [] := by
  unfold resolve
  split <;> simp_all

theorem resolve_of_several (nonempty : definition.mostSpecific types target ≠ [])
    (several : ∀ candidate, definition.mostSpecific types target ≠ [candidate]) :
    definition.resolve types target = .error (.ambiguousValidators definition.name target
      ((definition.mostSpecific types target).map (·.name))) := by
  unfold resolve
  split
  · next none => exact absurd none nonempty
  · next candidate one => exact absurd one (several candidate)
  · rfl

/-- The same candidates are left in any order. -/
theorem mostSpecific_perm (perm : other.validators.Perm definition.validators) :
    (other.mostSpecific types target).Perm (definition.mostSpecific types target) := by
  rw [mostSpecific_eq, mostSpecific_eq]
  have same : ∀ candidate, Finest types other target candidate
      ↔ Finest types definition target candidate := by
    intro candidate
    simp only [Finest, perm.mem_iff]
  simp only [same]
  exact perm.filter _

theorem sameChoice_of_perm (named : other.name = definition.name)
    (perm : (other.mostSpecific types target).Perm (definition.mostSpecific types target)) :
    SameChoice (other.resolve types target) (definition.resolve types target) := by
  by_cases none : definition.mostSpecific types target = []
  · rw [resolve_eq_none.mpr none, resolve_eq_none.mpr (List.perm_nil.mp (none ▸ perm)), named]
    exact .none _ _
  by_cases one : ∃ candidate, definition.mostSpecific types target = [candidate]
  · obtain ⟨candidate, one⟩ := one
    rw [resolve_eq_ok.mpr one, resolve_eq_ok.mpr (List.perm_singleton.mp (one ▸ perm))]
    exact .chosen candidate
  have several : ∀ candidate, other.mostSpecific types target ≠ [candidate] := by
    intro candidate same
    rw [same] at perm
    exact one ⟨candidate, List.singleton_perm.mp perm |>.symm⟩
  have nonempty : other.mostSpecific types target ≠ [] := by
    intro same
    rw [same] at perm
    exact none (List.nil_perm.mp perm)
  rw [resolve_of_several none fun candidate same => one ⟨candidate, same⟩,
    resolve_of_several nonempty several, named]
  exact .ambiguous _ _ (perm.map _)

/-- **How a validator is chosen for a type, whatever types have been registered**: the candidate is
chosen that is for a strictly more specific type than all others that apply; the choice fails if
none applies, and is ambiguous in all other cases. -/
theorem resolve_registered (calls : List Registration) (definition : ConstraintDefinition)
    (target : TypeKey) : Resolves (.registered calls) definition target := by
  have summit := TypeSystem.parents_object_registered calls
  constructor
  · exact fun candidate => resolve_eq_ok.trans (mostSpecific_eq_singleton summit)
  · exact resolve_eq_none.trans (mostSpecific_eq_nil summit)
  · rintro unchosen ⟨candidate, member, applies⟩
    rw [← mostSpecific_eq]
    refine resolve_of_several (fun none => ?_) fun candidate one => ?_
    · exact (mostSpecific_eq_nil summit).mp none candidate member applies
    · exact unchosen candidate ((mostSpecific_eq_singleton summit).mp one)
  · exact fun other named perm => sameChoice_of_perm named (mostSpecific_perm perm)

end ConstraintDefinition

end GraphValidation
