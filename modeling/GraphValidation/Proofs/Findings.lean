/-
**What a constraint finds on a value.**

What the evaluation of a constraint reports is a function of the constraint, the value and the site:
it depends neither on what has been reported before nor on a composite above that only counts.

* `judge` — the findings of a constraint: the violations, the constraints that have been evaluated,
  and the error that ended the evaluation, if one did.
* `evaluate_apply` — **evaluating a constraint notes its findings**, in any context.
-/
import GraphValidation.Engine
import GraphValidation.Proofs.Run

namespace GraphValidation

/-- Where a constraint is evaluated: in the graph of which root, on which bean, at which path, and
as a constraint of which property. -/
structure Site where
  rootType : Option TypeKey
  bean : Value
  path : Path
  property : Option String

/-- Where a context stands. -/
def Context.site (context : Context) : Site :=
  ⟨context.rootType, context.bean, context.path, context.property⟩

/-- The violation of a constraint at a site, or on a property below it. -/
def Site.violation (environment : Environment) (site : Site) (node : ConstraintNode)
    (template : String) (below : Option String) (value : Value) : Violation where
  path := match below with
    | some name => site.path.add name
    | none => site.path
  message := environment.interpolator template node.descriptor value
  template
  rootType := site.rootType
  leafBean := site.bean.bean?
  property := below.or site.property
  invalid := value
  constraint := some node.descriptor

/-- What an evaluation has found. -/
structure Findings where
  /-- The violations, in order. -/
  violations : List Violation
  /-- The constraints that have been evaluated, in order. -/
  places : List NodePlace
  /-- The error that ended the evaluation. -/
  failure : Option ValidationError

namespace Findings

/-- Nothing is found. -/
def nothing : Findings := ⟨[], [], none⟩

/-- A constraint is evaluated. -/
def reached (place : NodePlace) : Findings := ⟨[], [place], none⟩

/-- Violations are found. -/
def violated (violations : List Violation) : Findings := ⟨violations, [], none⟩

/-- An error ends the evaluation. -/
def failed (error : ValidationError) : Findings := ⟨[], [], some error⟩

/-- What is found by one evaluation after another; nothing comes after an error. -/
def andThen (first second : Findings) : Findings :=
  match first.failure with
  | some _ => first
  | none =>
    ⟨first.violations ++ second.violations, first.places ++ second.places, second.failure⟩

theorem mem_violations_andThen {first second : Findings} {violation : Violation}
    (member : violation ∈ (first.andThen second).violations) :
    violation ∈ first.violations ∨ violation ∈ second.violations := by
  unfold andThen at member
  cases failure : first.failure with
  | some error =>
    simp only [failure] at member
    exact .inl member
  | none =>
    simp only [failure] at member
    exact List.mem_append.mp member

/-- The same without the violations. -/
def silenced (findings : Findings) : Findings := { findings with violations := [] }

end Findings

/-! ### The judgement of a constraint -/

/-- The violations that a predicate's report stands for. -/
def violationsOf (environment : Environment) (site : Site) (node : ConstraintNode) (value : Value)
    (report : Report) : List Violation :=
  report.custom.map
      (fun custom => site.violation environment node custom.template custom.property value)
    ++ if report.defaultEnabled then
        [site.violation environment node node.content.template none value]
      else []

/-- What the validator of a constraint itself finds. -/
def judgeOwn (environment : Environment) (site : Site) (value : Value) (node : ConstraintNode) :
    Findings :=
  match node.content.validator with
  | none => .nothing
  | some (name, predicate) =>
    match predicate environment.heap value (.start node.content.template) with
    | .error error => .failed (.predicate node.content.constraint name site.path.text error)
    | .ok (true, _) => .nothing
    | .ok (false, report) => .violated (violationsOf environment site node value report)

mutual

/-- What a constraint finds on a value.  Of a composite that reports as one, the violations of the
composing constraints are replaced by its own. -/
def judge (environment : Environment) (site : Site) (place : NodePlace) (value : Value) :
    ConstraintNode → Findings
  | .mk content composing =>
    let below := judgeAll environment site place 0 value composing
    let own := judgeOwn environment site value (.mk content composing)
    (Findings.reached place).andThen
      (if !composing.isEmpty && content.single then
        below.silenced.andThen
          (if below.violations.isEmpty then own
          else .violated
            [site.violation environment (.mk content composing) content.template none value])
      else below.andThen own)

/-- What composing constraints find, in order. -/
def judgeAll (environment : Environment) (site : Site) (place : NodePlace) (index : Nat)
    (value : Value) : List ConstraintNode → Findings
  | [] => .nothing
  | node :: rest =>
    (judge environment site { place with positions := place.positions ++ [index] } value
      node).andThen (judgeAll environment site place (index + 1) value rest)

end

/-! ### Noting findings in a context -/

/-- The counters of the composites under evaluation after the innermost one has counted more. -/
def countMore (more : Nat) : List Nat → List Nat
  | [] => []
  | counted :: outer => (counted + more) :: outer

@[simp] theorem isEmpty_countMore (more : Nat) (counters : List Nat) :
    (countMore more counters).isEmpty = counters.isEmpty := by
  cases counters <;> rfl

theorem countMore_cons (more counted : Nat) (outer : List Nat) :
    countMore more (counted :: outer) = (counted + more) :: outer := rfl

@[simp] theorem countMore_zero (counters : List Nat) : countMore 0 counters = counters := by
  cases counters <;> rfl

@[simp] theorem countMore_countMore (more again : Nat) (counters : List Nat) :
    countMore again (countMore more counters) = countMore (more + again) counters := by
  cases counters with
  | nil => rfl
  | cons counted outer => simp [countMore, Nat.add_assoc]

namespace Context

/-- The context after an evaluation has found something: violations are reported, or only counted
where a composite above reports as one. -/
def noting (context : Context) (findings : Findings) : Context :=
  { context with
    journal := (findings.places.map (Event.evaluated context.bean context.path context.group)).reverse
      ++ context.journal
    isolated := countMore findings.violations.length context.isolated
    reported :=
      if context.isolated.isEmpty then findings.violations.reverse ++ context.reported
      else context.reported
    violationCount :=
      if context.isolated.isEmpty then context.violationCount + findings.violations.length
      else context.violationCount }

@[simp] theorem site_noting (context : Context) (findings : Findings) :
    (context.noting findings).site = context.site := rfl

@[simp] theorem noting_nothing (context : Context) : context.noting .nothing = context := by
  simp [noting, Findings.nothing]

/-- Noting the findings of two evaluations one after the other. -/
theorem noting_andThen (context : Context) (first second : Findings)
    (succeeded : first.failure = none) :
    context.noting (first.andThen second) = (context.noting first).noting second := by
  simp only [noting, Findings.andThen, succeeded, isEmpty_countMore, countMore_countMore]
  cases context.isolated.isEmpty <;> simp [Nat.add_assoc]

/-- The result of a step that notes findings. -/
def concluding (context : Context) (findings : Findings) :
    EStateM.Result ValidationError Context Unit :=
  match findings.failure with
  | none => .ok () (context.noting findings)
  | some error => .error error (context.noting findings)

theorem concluding_of_succeeded (context : Context) (first second : Findings)
    (succeeded : first.failure = none) :
    context.concluding (first.andThen second) = (context.noting first).concluding second := by
  unfold concluding
  rw [noting_andThen context first second succeeded]
  simp [Findings.andThen, succeeded]

theorem concluding_of_failed (context : Context) (first second : Findings)
    {error : ValidationError} (failure : first.failure = some error) :
    context.concluding (first.andThen second) = .error error (context.noting first) := by
  simp [concluding, Findings.andThen, failure]

theorem concluding_andThen {step next : Run Unit} {context : Context} (first second : Findings)
    (leading : step context = context.concluding first)
    (following : next (context.noting first) = (context.noting first).concluding second) :
    (do step; next : Run Unit) context = context.concluding (first.andThen second) := by
  cases failure : first.failure with
  | some error =>
    rw [concluding_of_failed context first second failure]
    simp only [concluding, failure] at leading
    exact Run.bind_of_error leading
  | none =>
    rw [concluding_of_succeeded context first second failure, ← following]
    simp only [concluding, failure] at leading
    exact Run.bind_of_ok leading

end Context

/-! ### Evaluating a constraint -/

namespace Engine

variable (environment : Environment)

/-- A report is noted as one violation. -/
theorem report_apply (context : Context) (node : ConstraintNode) (template : String)
    (below : Option String) (value : Value) :
    Run.report environment node template below value context
      = context.concluding
          (.violated [context.site.violation environment node template below value]) := by
  cases isolated : context.isolated with
  | nil =>
    simp only [Run.report, Run.bind_apply, Run.get_apply, isolated, Run.set_apply]
    simp [Context.concluding, Context.noting, Findings.violated, isolated, countMore]
    rfl
  | cons counted outer =>
    simp only [Run.report, Run.bind_apply, Run.get_apply, isolated, Run.set_apply]
    simp [Context.concluding, Context.noting, Findings.violated, isolated, countMore]

theorem forEach_report_apply {α : Type} (node : ConstraintNode) (value : Value)
    (template : α → String) (below : α → Option String) (items : List α) (context : Context) :
    Run.forEach (fun item => Run.report environment node (template item) (below item) value) items
        context
      = context.concluding (.violated (items.map fun item =>
          context.site.violation environment node (template item) (below item) value)) := by
  induction items generalizing context with
  | nil => exact congrArg _ (Context.noting_nothing context).symm
  | cons item rest ih =>
    refine Context.concluding_andThen _ (.violated _)
      (report_apply environment context node (template item) (below item) value) ?_
    rw [ih, Context.site_noting]

theorem reportInvalid_apply (context : Context) (node : ConstraintNode) (value : Value)
    (report : Report) :
    reportInvalid environment node value report context
      = context.concluding
          (.violated (violationsOf environment context.site node value report)) := by
  have customs := forEach_report_apply environment node value CustomViolation.template
    CustomViolation.property report.custom context
  refine Context.concluding_andThen _ (.violated _) customs ?_
  cases report.defaultEnabled with
  | true => exact report_apply environment _ node _ none value
  | false => exact congrArg _ (Context.noting_nothing _).symm

theorem evaluateOwn_apply (context : Context) (node : ConstraintNode) (value : Value) :
    evaluateOwn environment node value context
      = context.concluding (judgeOwn environment context.site value node) := by
  unfold evaluateOwn judgeOwn
  cases node.content.validator with
  | none => exact congrArg _ (Context.noting_nothing context).symm
  | some validator =>
    obtain ⟨name, predicate⟩ := validator
    simp only [Run.bind_apply, Run.get_apply]
    cases predicate environment.heap value (.start node.content.template) with
    | error error => exact congrArg _ (Context.noting_nothing context).symm
    | ok answer =>
      obtain ⟨valid, report⟩ := answer
      cases valid with
      | true => exact congrArg _ (Context.noting_nothing context).symm
      | false => exact reportInvalid_apply environment context node value report

/-- A step below a composite that reports as one is only counted. -/
theorem isolate_apply (context : Context) (step : Run Unit) (findings : Findings)
    (inner : step { context with isolated := 0 :: context.isolated }
      = Context.concluding { context with isolated := 0 :: context.isolated } findings) :
    Run.isolate step context = match findings.failure with
      | none => .ok (!findings.violations.isEmpty) (context.noting findings.silenced)
      | some error => .error error (context.noting findings.silenced) := by
  have popped : ∀ noted : Context,
      noted = Context.noting { context with isolated := 0 :: context.isolated } findings →
        { noted with isolated := noted.isolated.tail } = context.noting findings.silenced := by
    rintro _ rfl
    simp [Context.noting, Findings.silenced, countMore_cons]
  simp only [Run.isolate, Run.bind_apply, Run.modify_apply, Run.restoring_apply, inner,
    Context.concluding]
  cases findings.failure with
  | some error => exact congrArg _ (popped _ rfl)
  | none =>
    simp only [Run.get_apply, Run.pure_apply, popped _ rfl]
    cases found : findings.violations <;> simp [Context.noting, countMore_cons, found]

/-- A composite that reports as one reports once, or else is evaluated itself. -/
theorem single_apply (context : Context) {composing reporting owning : Run Unit}
    (below reported own : Findings)
    (inner : composing { context with isolated := 0 :: context.isolated }
      = Context.concluding { context with isolated := 0 :: context.isolated } below)
    (reports : ∀ later : Context, later.site = context.site →
      reporting later = later.concluding reported)
    (owns : ∀ later : Context, later.site = context.site → owning later = later.concluding own) :
    (do if ← Run.isolate composing then reporting else owning : Run Unit) context
      = context.concluding
          (below.silenced.andThen (if below.violations.isEmpty then own else reported)) := by
  have counted := isolate_apply context composing below inner
  cases failure : below.failure with
  | some error =>
    rw [Context.concluding_of_failed context below.silenced _ failure]
    rw [failure] at counted
    exact Run.bind_of_error counted
  | none =>
    rw [Context.concluding_of_succeeded context below.silenced _ failure]
    rw [failure] at counted
    rw [Run.bind_of_ok counted]
    cases below.violations.isEmpty with
    | true => exact owns _ (Context.site_noting context _)
    | false => exact reports _ (Context.site_noting context _)

mutual

/-- **Evaluating a constraint notes its findings**, whatever the context. -/
theorem evaluate_apply (place : NodePlace) (value : Value) (node : ConstraintNode)
    (context : Context) :
    evaluate environment place value node context
      = context.concluding (judge environment context.site place value node) := by
  cases node with
  | mk content composing =>
    have below := fun later : Context =>
      evaluateAll_apply place 0 value composing later
    have own := fun later : Context => evaluateOwn_apply environment later (.mk content composing)
      value
    rw [evaluate, judge, Run.bind_of_ok (Run.get_apply context)]
    refine Context.concluding_andThen (.reached place) _ (by
      simp [Context.concluding, Findings.reached, Context.noting]) ?_
    split
    · refine single_apply _ _ _ _ (below _) (fun later same => ?_) fun later same => ?_
      · rw [report_apply, same]
        rfl
      · rw [own, same]
        rfl
    · refine Context.concluding_andThen _ _ (below _) ?_
      rw [own]
      rfl

theorem evaluateAll_apply (place : NodePlace) (index : Nat) (value : Value)
    (nodes : List ConstraintNode) (context : Context) :
    evaluateAll environment place index value nodes context
      = context.concluding (judgeAll environment context.site place index value nodes) := by
  cases nodes with
  | nil => exact congrArg _ (Context.noting_nothing context).symm
  | cons node rest =>
    simp only [evaluateAll, judgeAll]
    refine Context.concluding_andThen _ _ (evaluate_apply _ value node context) ?_
    rw [evaluateAll_apply place (index + 1) value rest, Context.site_noting]

end

end Engine

end GraphValidation
