/-
**What a tree of constraints yields.**

A constraint yields a list of violations, by recursion over the constraints that it is composed of:
the definition knows neither a listener nor counters.  That the evaluation reports this list
rests on the findings of a constraint, which are the same below any composite that only counts.

* `ConstraintNode.yields` — the violations of a constraint on a value, or the error of the first
  validator without an answer.
* `judge_outcome` — the findings of a constraint come to what it yields.
* `evaluate_reports` — **outside of composites that only count, an evaluation reports what the
  constraint yields**, and counts it.
-/
import GraphValidation.Proofs.Findings

namespace GraphValidation

namespace ConstraintNode

variable (environment : Environment) (site : Site) (value : Value)

/-- The violations that the validator of a constraint itself yields: of an invalid value those that
it adds, in order, then the one that stands for the constraint unless it is switched off. -/
def yieldsOwn (node : ConstraintNode) : Except ValidationError (List Violation) :=
  match node.content.validator with
  | none => .ok []
  | some (name, predicate) =>
    match predicate environment.heap value (.start node.content.template) with
    | .error error => .error (.predicate node.content.constraint name site.path.text error)
    | .ok (true, _) => .ok []
    | .ok (false, report) =>
      let customs := report.custom.map fun custom =>
        site.violation environment node custom.template custom.property value
      .ok (if report.defaultEnabled then
        customs ++ [site.violation environment node node.content.template none value]
      else customs)

mutual

/-- **The violations that a constraint yields on a value.**  A composite that reports as one yields
one violation of its own in place of those below it, and what its validator yields where there are
none. -/
def yields : ConstraintNode → Except ValidationError (List Violation)
  | .mk content composing => do
    let below ← yieldsAll composing
    match content.single, below with
    | true, _ :: _ =>
      .ok [site.violation environment (.mk content composing) content.template none value]
    | true, [] => yieldsOwn environment site value (.mk content composing)
    | false, below =>
      let own ← yieldsOwn environment site value (.mk content composing)
      .ok (below ++ own)

/-- The violations that constraints yield on a value, in order. -/
def yieldsAll : List ConstraintNode → Except ValidationError (List Violation)
  | [] => .ok []
  | node :: rest => do
    let first ← yields node
    let others ← yieldsAll rest
    .ok (first ++ others)

end

end ConstraintNode

/-! ### Findings and what they come to -/

namespace Findings

/-- The violations of an evaluation, or the error that ended it. -/
def outcome (findings : Findings) : Except ValidationError (List Violation) :=
  match findings.failure with
  | none => .ok findings.violations
  | some error => .error error

@[simp] theorem outcome_nothing : outcome .nothing = .ok [] := rfl

@[simp] theorem outcome_violated (violations : List Violation) :
    (violated violations).outcome = .ok violations := rfl

@[simp] theorem outcome_failed (error : ValidationError) : (failed error).outcome = .error error :=
  rfl

theorem outcome_andThen (first second : Findings) :
    (first.andThen second).outcome = (do
      let before ← first.outcome
      let after ← second.outcome
      .ok (before ++ after)) := by
  unfold outcome andThen
  cases failure : first.failure with
  | some error =>
    simp only [failure]
    rfl
  | none => cases second.failure <;> rfl

@[simp] theorem outcome_reached_andThen (place : NodePlace) (findings : Findings) :
    ((reached place).andThen findings).outcome = findings.outcome := by
  unfold outcome andThen reached
  cases findings.failure <;> rfl

theorem outcome_silenced_andThen (below after : Findings) :
    (below.silenced.andThen after).outcome = (do
      let _ ← below.outcome
      after.outcome) := by
  unfold outcome andThen silenced
  cases failure : below.failure with
  | some error =>
    rfl
  | none => cases after.failure <;> rfl

/-- Findings that come to violations have succeeded with them. -/
theorem of_outcome {findings : Findings} {violations : List Violation}
    (yielded : findings.outcome = .ok violations) :
    findings.failure = none ∧ findings.violations = violations := by
  unfold outcome at yielded
  cases failure : findings.failure with
  | some error => simp [failure] at yielded
  | none => exact ⟨rfl, by simpa [failure] using yielded⟩

theorem failure_of_outcome {findings : Findings} {error : ValidationError}
    (yielded : findings.outcome = .error error) : findings.failure = some error := by
  unfold outcome at yielded
  cases failure : findings.failure with
  | some other => simpa [failure] using yielded
  | none => simp [failure] at yielded

end Findings

section Outcomes

variable (environment : Environment) (site : Site) (value : Value)

theorem judgeOwn_outcome (node : ConstraintNode) :
    (judgeOwn environment site value node).outcome = node.yieldsOwn environment site value := by
  unfold judgeOwn ConstraintNode.yieldsOwn
  cases node.content.validator with
  | none => rfl
  | some validator =>
    obtain ⟨name, predicate⟩ := validator
    simp only
    cases predicate environment.heap value (.start node.content.template) with
    | error error => rfl
    | ok answer =>
      obtain ⟨valid, report⟩ := answer
      cases valid with
      | true => rfl
      | false => cases enabled : report.defaultEnabled <;> simp [violationsOf, enabled]

mutual

/-- **The findings of a constraint come to what it yields.** -/
theorem judge_outcome (place : NodePlace) (node : ConstraintNode) :
    (judge environment site place value node).outcome = node.yields environment site value := by
  cases node with
  | mk content composing =>
    have below := judgeAll_outcome place 0 composing
    have own := judgeOwn_outcome environment site value (.mk content composing)
    rw [judge, ConstraintNode.yields, Findings.outcome_reached_andThen, ← below]
    cases single : content.single with
    | false =>
      simp only [Bool.and_false, Bool.false_eq_true, if_false]
      rw [Findings.outcome_andThen, own]
    | true =>
      cases composing with
      | nil =>
        simp only [List.isEmpty_nil, Bool.not_true, Bool.false_and, Bool.false_eq_true, if_false]
        rw [Findings.outcome_andThen, own]
        unfold judgeAll
        cases ConstraintNode.yieldsOwn environment site value (.mk content []) <;> rfl
      | cons first rest =>
        simp only [List.isEmpty_cons, Bool.not_false, Bool.true_and, if_true]
        rw [Findings.outcome_silenced_andThen]
        cases yielded : (judgeAll environment site place 0 value (first :: rest)).outcome with
        | error error => rfl
        | ok violations =>
          rw [(Findings.of_outcome yielded).2]
          cases violations with
          | nil => exact own
          | cons _ _ => rfl

theorem judgeAll_outcome (place : NodePlace) (index : Nat) (nodes : List ConstraintNode) :
    (judgeAll environment site place index value nodes).outcome
      = ConstraintNode.yieldsAll environment site value nodes := by
  cases nodes with
  | nil => rfl
  | cons node rest =>
    rw [judgeAll, ConstraintNode.yieldsAll, Findings.outcome_andThen, judge_outcome,
      judgeAll_outcome]

end

/-- What is found on a composite that reports as one, where something below it is violated, does not
depend on its own validator. -/
theorem judge_of_violated_below {content : NodeContent} {composing : List ConstraintNode}
    (place : NodePlace) (isSingle : content.single = true) {first : Violation}
    {others : List Violation}
    (below : ConstraintNode.yieldsAll environment site value composing = .ok (first :: others))
    (validator : Option (String × Predicate)) :
    judge environment site place value (.mk { content with validator } composing)
      = judge environment site place value (.mk content composing) := by
  cases composing with
  | nil => cases below
  | cons node rest =>
    rw [← judgeAll_outcome environment site value place 0] at below
    obtain ⟨constraint, attributes, groups, payload, template, single, other, owner, access⟩ := content
    cases isSingle
    simp only [judge, List.isEmpty_cons, Bool.not_false, Bool.and_true, if_true,
      (Findings.of_outcome below).2, Bool.false_eq_true, if_false]
    -- The violation tells of the constraint what it tells of itself, which is not its validator.
    rfl

end Outcomes

/-! ### Evaluation outside of isolation -/

/-- A context that has reported more violations and counted them, and has otherwise only written
into its journal. -/
def Context.Reporting (context : Context) (violations : List Violation) (later : Context) : Prop :=
  later = { context with
    reported := violations.reverse ++ context.reported
    violationCount := context.violationCount + violations.length
    journal := later.journal }

theorem Context.reporting_noting {context : Context} (outside : context.isolated = [])
    (findings : Findings) : context.Reporting findings.violations (context.noting findings) := by
  simp [Context.Reporting, Context.noting, outside, countMore]

/-- **Outside of composites that only count, an evaluation reports what the constraint yields.**  It
reports these violations in order, counts each, and changes nothing else but the journal; where the
constraint yields an error, also far below and also under composites that only count, the evaluation
ends with that error.  Where something below a composite that reports as one is violated, another
validator in its place would make no difference. -/
theorem evaluate_reports (environment : Environment) (place : NodePlace) (value : Value)
    (node : ConstraintNode) (context : Context) (outside : context.isolated = []) :
    (match node.yields environment context.site value with
      | .ok violations => ∃ later,
        Engine.evaluate environment place value node context = .ok () later
          ∧ context.Reporting violations later
      | .error error => ∃ before later,
        Engine.evaluate environment place value node context = .error error later
          ∧ context.Reporting before later)
    ∧ ∀ first others, node.content.single = true →
        ConstraintNode.yieldsAll environment context.site value node.composing
          = .ok (first :: others) →
        ∀ validator, Engine.evaluate environment place value
            (.mk { node.content with validator } node.composing) context
          = Engine.evaluate environment place value node context := by
  have noted := Engine.evaluate_apply environment place value node context
  have yielded := judge_outcome environment context.site value place node
  have reporting := Context.reporting_noting outside (judge environment context.site place value node)
  constructor
  · cases yields : node.yields environment context.site value with
    | ok violations =>
      rw [yields] at yielded
      obtain ⟨succeeded, found⟩ := Findings.of_outcome yielded
      refine ⟨_, ?_, found ▸ reporting⟩
      rw [noted, Context.concluding, succeeded]
    | error error =>
      rw [yields] at yielded
      refine ⟨_, _, ?_, reporting⟩
      rw [noted, Context.concluding, Findings.failure_of_outcome yielded]
  · intro first others single below validator
    cases node with
    | mk content composing =>
      rw [Engine.evaluate_apply, Engine.evaluate_apply]
      exact congrArg context.concluding
        (judge_of_violated_below environment context.site value place single below validator)

/-! ### A tree to try it on -/

namespace Nested

/-- What a constraint without a validator holds. -/
def content (template : String) : NodeContent :=
  ⟨"Checked", .empty, [], [], template, false, none, ⟨"Node"⟩, none⟩

/-- A constraint that no value satisfies and that reports on a part of the value first. -/
def rejecting (template : String) (composing : List ConstraintNode) : ConstraintNode :=
  .mk { content template with
    validator := some ("rejecting", Predicate.acting [.add ⟨"part", some "part"⟩] (.always false)) }
    composing

/-- A composite that reports as one and whose validator has no answer. -/
def single (template : String) (composing : List ConstraintNode) : ConstraintNode :=
  .mk { content template with
    single := true
    validator := some ("failing", .failing "no answer") } composing

/-- A composite that adds a violation to the one of the composite below it. -/
def tree : ConstraintNode := rejecting "outer" [single "inner" [rejecting "leaf" []]]

def environment : Environment := ⟨⟨[]⟩, .builtin, .default, fun template _ _ => template, false⟩

def context : Context := .start (.ofConfiguration ⟨.builtin, ⟨[]⟩, [], []⟩)

end Nested

/-- The tree reports one violation for what is below its composite, and then its own. -/
theorem evaluate_reports_nested :
    ∃ violations later,
      Engine.evaluate Nested.environment ⟨⟨"Node"⟩, none, [0]⟩ .null Nested.tree Nested.context
        = .ok () later
      ∧ Nested.context.Reporting violations later
      ∧ violations.map (·.template) = ["inner", "part", "outer"] := by
  obtain ⟨reports, -⟩ := evaluate_reports Nested.environment ⟨⟨"Node"⟩, none, [0]⟩ .null Nested.tree
    Nested.context rfl
  have templates : (Nested.tree.yields Nested.environment Nested.context.site .null).toOption.map
      (List.map (·.template)) = some ["inner", "part", "outer"] := by decide +kernel
  cases yields : Nested.tree.yields Nested.environment Nested.context.site .null with
  | error error =>
    rw [yields] at templates
    cases templates
  | ok violations =>
    rw [yields] at templates reports
    obtain ⟨later, evaluated, reporting⟩ := reports
    exact ⟨violations, later, evaluated, reporting, Option.some.inj templates⟩

end GraphValidation
