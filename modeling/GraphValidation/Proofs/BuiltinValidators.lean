/-
**What built-in validators are for.**

A validator is chosen for the declared type, but it sees values of all types below that.  The types
of scalars and containers are built in, and nothing that is registered ever comes above a built-in
type.  So a validator whose type admits a scalar or a container admits it among the built-in types
alone, and there its type says what shape the value has.

* `TypeSystem.Admits` — a declared type admits null, and scalars and containers of the types below.
* `TypeSystem.admits_of_registered` — **what admits a value does so among the built-in types alone**.
* `TypeSystem.shapes` — which scalars and containers may stand for the types of validators.
* `TypeSystem.bool_of_admits`, …, `TypeSystem.sized_of_admits` — the shapes of admitted values.
* `Builtin.serves` — **each built-in validator answers for all values that its type admits**, once
  it is set up.
-/
import GraphValidation.Constraint.Builtin
import GraphValidation.Proofs.Registration

namespace GraphValidation

/-- A value is a scalar or a container: neither a bean nor an enum constant. -/
def Value.IsPlain : Value → Prop
  | .enum _ => False
  | .bean _ => False
  | _ => True

/-- The types of scalars and containers. -/
def Value.plainTypes : List TypeKey :=
  [.object, .boolean, .integer, .double, .string, .list, .set, .array, .map]

theorem Value.runtimeType_of_isPlain {value : Value} (plain : value.IsPlain) :
    value.runtimeType ∈ plainTypes := by
  cases value with
  | enum _ => exact plain.elim
  | bean _ => exact plain.elim
  | null | bool | int | float | string | list | set | array | map => simp [runtimeType, plainTypes]

/-- A declared type admits null, and scalars and containers whose own type may stand for it. -/
def TypeSystem.Admits (types : TypeSystem) (declared : TypeKey) (value : Value) : Prop :=
  value = .null ∨ value.IsPlain ∧ types.isAssignable declared value.runtimeType

/-! ### Above the built-in types -/

namespace TypeSystem

variable {types : TypeSystem} {key parent upper declared : TypeKey} {value : Value}

/-- The parents of a type are registered. -/
theorem known_of_parent (isParent : parent ∈ types.parents key) : (types.get? parent).isSome := by
  cases found : types.get? key with
  | none =>
    rw [parents_of_none found] at isParent
    cases isParent
  | some info =>
    rw [parents_of_some found] at isParent
    exact types.parentsFirst.parent_known found isParent

/-- What is above a built-in type stays the same, whatever is registered. -/
theorem inherits_registered (calls : List Registration) (known : (builtin.get? key).isSome) :
    (registered calls).Inherits key upper ↔ builtin.Inherits key upper := by
  induction key using builtin.parents_induction with
  | step key ih =>
    obtain ⟨info, found⟩ := Option.isSome_iff_exists.mp known
    have same : (registered calls).parents key = builtin.parents key := by
      rw [parents_of_some (get?_registered calls found), parents_of_some found]
    rw [inherits_iff, inherits_iff, same]
    refine exists_congr fun parent => and_congr_right fun isParent => or_congr_right ?_
    exact ih parent isParent (known_of_parent isParent)

theorem isAssignable_registered (calls : List Registration) (known : (builtin.get? key).isSome) :
    (registered calls).isAssignable upper key ↔ builtin.isAssignable upper key := by
  rw [isAssignable_iff, isAssignable_iff, inherits_registered calls known]

/-- The types of scalars and containers are built in. -/
theorem known_of_isPlain (plain : value.IsPlain) : (builtin.get? value.runtimeType).isSome := by
  have known : ∀ key ∈ Value.plainTypes, (builtin.get? key).isSome := by decide +kernel
  exact known _ (Value.runtimeType_of_isPlain plain)

/-- **What is above a type that admits a value admits it too**, and does so among the built-in types
alone. -/
theorem admits_of_registered (calls : List Registration)
    (above : (registered calls).isAssignable upper declared)
    (admits : (registered calls).Admits declared value) : builtin.Admits upper value := by
  rcases admits with isNull | ⟨plain, below⟩
  · exact .inl isNull
  · refine .inr ⟨plain, (isAssignable_registered calls (known_of_isPlain plain)).mp ?_⟩
    exact isAssignable_trans (parents_object_registered calls) above below

/-! ### The shapes of values -/

/-- The types that validators are for, each with the types of scalars and containers that may stand
for it. -/
def shapes : List (TypeKey × List TypeKey) :=
  [(.boolean, [.boolean]), (.number, [.integer, .double]), (.charSequence, [.string]),
    (.collection, [.list, .set]), (.map, [.map]), (.array, [.array])]

theorem runtimeType_of_admits {own : List TypeKey} (shape : (declared, own) ∈ shapes)
    (admits : builtin.Admits declared value) :
    value = .null ∨ value.IsPlain ∧ value.runtimeType ∈ own := by
  have below : ∀ shape ∈ shapes, ∀ key ∈ Value.plainTypes,
      builtin.isAssignable shape.1 key → key ∈ shape.2 := by
    decide +kernel
  refine admits.imp_right fun ⟨plain, assignable⟩ => ⟨plain, ?_⟩
  exact below _ shape _ (Value.runtimeType_of_isPlain plain) assignable

theorem bool_of_admits (admits : builtin.Admits .boolean value) :
    value = .null ∨ ∃ truth, value = .bool truth := by
  have shape : (TypeKey.boolean, [TypeKey.boolean]) ∈ shapes := by decide
  refine (runtimeType_of_admits shape admits).imp_right fun ⟨plain, own⟩ => ?_
  cases value with
  | bool truth => exact ⟨truth, rfl⟩
  | enum _ => exact plain.elim
  | bean _ => exact plain.elim
  | null | int | float | string | list | set | array | map =>
    dsimp only [Value.runtimeType] at own
    exact absurd own (by decide)

theorem number_of_admits (admits : builtin.Admits .number value) :
    value = .null ∨ (∃ number, value = .int number) ∨ ∃ number, value = .float number := by
  have shape : (TypeKey.number, [TypeKey.integer, .double]) ∈ shapes := by decide
  refine (runtimeType_of_admits shape admits).imp_right fun ⟨plain, own⟩ => ?_
  cases value with
  | int number => exact .inl ⟨number, rfl⟩
  | float number => exact .inr ⟨number, rfl⟩
  | enum _ => exact plain.elim
  | bean _ => exact plain.elim
  | null | bool | string | list | set | array | map =>
    dsimp only [Value.runtimeType] at own
    exact absurd own (by decide)

theorem text_of_admits (admits : builtin.Admits .charSequence value) :
    value = .null ∨ ∃ text, value = .string text := by
  have shape : (TypeKey.charSequence, [TypeKey.string]) ∈ shapes := by decide
  refine (runtimeType_of_admits shape admits).imp_right fun ⟨plain, own⟩ => ?_
  cases value with
  | string text => exact ⟨text, rfl⟩
  | enum _ => exact plain.elim
  | bean _ => exact plain.elim
  | null | bool | int | float | list | set | array | map =>
    dsimp only [Value.runtimeType] at own
    exact absurd own (by decide)

/-- What may stand for a text or a container has a size. -/
theorem sized_of_admits (sized : declared ∈ [.charSequence, .collection, .map, .array])
    (admits : builtin.Admits declared value) : value = .null ∨ ∃ size, value.size? = some size := by
  have shape : ∀ key ∈ [TypeKey.charSequence, .collection, .map, .array],
      ∃ shape ∈ shapes, shape.1 = key ∧ ∀ own ∈ shape.2,
        own ∉ [TypeKey.object, .boolean, .integer, .double] := by
    decide
  obtain ⟨⟨_, kinds⟩, isShape, rfl, sizes⟩ := shape declared sized
  refine (runtimeType_of_admits isShape admits).imp_right fun ⟨plain, own⟩ => ?_
  cases value with
  | string | list | set | array | map => exact ⟨_, rfl⟩
  | enum _ => exact plain.elim
  | bean _ => exact plain.elim
  | null | bool | int | float => exact absurd (sizes _ own) (by simp [Value.runtimeType])

end TypeSystem

/-! ### Validators -/

/-- A predicate has an answer for a value. -/
def Predicate.Answers (predicate : Predicate) (value : Value) : Prop :=
  ∀ heap report, ∃ answer, predicate heap value report = .ok answer

/-- A validator that is set up has an answer for every value that its type admits. -/
def Candidate.Serves (candidate : Candidate) : Prop :=
  ∀ attributes predicate, candidate.setUp attributes = .ok predicate →
    ∀ value, TypeSystem.builtin.Admits candidate.supported value → predicate.Answers value

theorem Predicate.answers_test {holds : Value → Except PredicateError Bool} {value : Value}
    {valid : Bool} (answer : holds value = .ok valid) : (test holds).Answers value :=
  fun _ report => ⟨(valid, report), by rw [test, answer]⟩

theorem Candidate.serves_ofPredicate {name : String} {supported : TypeKey} {predicate : Predicate}
    (answers : ∀ value, TypeSystem.builtin.Admits supported value → predicate.Answers value) :
    (ofPredicate name supported predicate).Serves := by
  rintro attributes _ ⟨⟩
  exact answers

namespace Builtin

variable {value : Value}

theorem isBool_answers (expected : Bool) (admits : TypeSystem.builtin.Admits .boolean value) :
    (isBool expected).Answers value := by
  rcases TypeSystem.bool_of_admits admits with rfl | ⟨truth, rfl⟩
  · exact Predicate.answers_test rfl
  · exact Predicate.answers_test rfl

theorem atLeast_answers (limit : Int64) (admits : TypeSystem.builtin.Admits .number value) :
    (atLeast limit).Answers value := by
  rcases TypeSystem.number_of_admits admits with rfl | ⟨number, rfl⟩ | ⟨number, rfl⟩
  · exact Predicate.answers_test rfl
  · exact Predicate.answers_test rfl
  · exact Predicate.answers_test rfl

theorem atMost_answers (limit : Int64) (admits : TypeSystem.builtin.Admits .number value) :
    (atMost limit).Answers value := by
  rcases TypeSystem.number_of_admits admits with rfl | ⟨number, rfl⟩ | ⟨number, rfl⟩
  · exact Predicate.answers_test rfl
  · exact Predicate.answers_test rfl
  · exact Predicate.answers_test rfl

theorem notBlank_answers (admits : TypeSystem.builtin.Admits .charSequence value) :
    notBlank.Answers value := by
  rcases TypeSystem.text_of_admits admits with rfl | ⟨text, rfl⟩
  · exact Predicate.answers_test rfl
  · exact Predicate.answers_test rfl

theorem isMatch_answers (constraint : String) (emptyIsValid : Bool) (program : Pattern.Program)
    (admits : TypeSystem.builtin.Admits .charSequence value) :
    (isMatch constraint emptyIsValid program).Answers value := by
  rcases TypeSystem.text_of_admits admits with rfl | ⟨text, rfl⟩
  · exact Predicate.answers_test rfl
  · exact Predicate.answers_test rfl

theorem sizeBetween_answers (least most : Int64)
    (sized : value = .null ∨ ∃ size, value.size? = some size) :
    (sizeBetween least most).Answers value := by
  rcases sized with rfl | ⟨size, known⟩
  · exact Predicate.answers_test rfl
  · cases isNull : value.isNull with
    | true => exact Predicate.answers_test (by rw [isNull]; rfl)
    | false => exact Predicate.answers_test (by rw [isNull, known]; rfl)

/-- The validators of sizes serve each of the types that they are for. -/
theorem sizeCandidate_serves (name : String) {supported : TypeKey}
    (sized : supported ∈ [.charSequence, .collection, .map, .array]) :
    (sizeCandidate name supported).Serves := by
  intro attributes predicate ready value admits
  dsimp only [sizeCandidate, setUpSize] at ready
  split at ready
  · cases ready
  split at ready
  · cases ready
  split at ready
  · cases ready
  cases ready
  exact sizeBetween_answers _ _ (TypeSystem.sized_of_admits sized admits)

theorem bound_serves {name constraint : String} {blank : Predicate} {bound : Int64 → Predicate}
    (answers : ∀ limit value, TypeSystem.builtin.Admits .number value →
      (bound limit).Answers value) :
    Candidate.Serves ⟨name, .number, blank, setUpBound constraint bound⟩ := by
  intro attributes predicate ready
  dsimp only [setUpBound] at ready
  split at ready
  · cases ready
    exact answers _
  · cases ready

theorem pattern_serves {name : String} {blank : Predicate} :
    Candidate.Serves ⟨name, .charSequence, blank, setUpPattern⟩ := by
  intro attributes predicate ready value admits
  have matching : ∃ program, predicate = isMatch "Pattern" false program := by
    dsimp only [setUpPattern] at ready
    split at ready
    · cases ready
    split at ready <;>
    · obtain ⟨flags, -, ready⟩ := bind_eq_ok.mp ready
      split at ready
      · cases ready
        exact ⟨_, rfl⟩
      · cases ready
  obtain ⟨program, rfl⟩ := matching
  exact isMatch_answers _ _ _ admits

theorem email_serves {name : String} {blank : Predicate} :
    Candidate.Serves ⟨name, .charSequence, blank, setUpEmail⟩ := by
  intro attributes predicate ready value admits
  dsimp only [setUpEmail] at ready
  cases compiled : emailProgram? with
  | none =>
    rw [compiled] at ready
    cases ready
  | some program =>
    rw [compiled] at ready
    cases ready
    exact isMatch_answers _ _ _ admits

/-- **Each built-in validator answers for all values that its type admits.** -/
theorem serves {definition : ConstraintDefinition} (isBuiltin : definition ∈ definitions) :
    ∀ candidate ∈ definition.validators, candidate.Serves := by
  simp only [definitions, List.mem_cons, List.not_mem_nil, or_false] at isBuiltin
  rcases isBuiltin with rfl | rfl | rfl | rfl | rfl | rfl | rfl | rfl | rfl | rfl | rfl <;>
    simp only [ConstraintDefinition.ofValidators, List.mem_cons, List.not_mem_nil, or_false,
      forall_eq_or_imp, forall_eq, false_implies, implies_true]
  · exact Candidate.serves_ofPredicate fun _ _ => Predicate.answers_test rfl
  · exact Candidate.serves_ofPredicate fun _ _ => Predicate.answers_test rfl
  · exact Candidate.serves_ofPredicate fun _ => isBool_answers true
  · exact Candidate.serves_ofPredicate fun _ => isBool_answers false
  · exact bound_serves fun limit _ => atLeast_answers limit
  · exact bound_serves fun limit _ => atMost_answers limit
  · exact ⟨sizeCandidate_serves _ (by simp), sizeCandidate_serves _ (by simp),
      sizeCandidate_serves _ (by simp), sizeCandidate_serves _ (by simp)⟩
  · exact pattern_serves
  · exact email_serves
  · exact Candidate.serves_ofPredicate fun _ => notBlank_answers

end Builtin

end GraphValidation
