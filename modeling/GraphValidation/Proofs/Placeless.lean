/-
**What is found does not depend on the way to it.**

A constraint is judged on a value, of a bean and under a property; the path to the bean only goes
into the paths of the violations and into the texts of errors.  So two evaluations of one constraint
on one bean find the same, whichever ways have led there.

* `Violation.placeless` — a violation without its path.
* `Findings.Alike` — the same findings, but for the paths.
* `judge_alike` — **a constraint finds the same at sites that differ in their paths**.
* `Setting.findings_alike` — the same of duties, also at different places of metadata.
-/
import GraphValidation.Proofs.Duties

namespace GraphValidation

/-- A violation, wherever it was found. -/
def Violation.placeless (violation : Violation) : Violation := { violation with path := .root }

/-- Sites that differ in their paths at most. -/
structure Site.Alike (site other : Site) : Prop where
  rootType : site.rootType = other.rootType
  bean : site.bean = other.bean
  property : site.property = other.property

/-- The same is found, but for the paths. -/
structure Findings.Alike (first second : Findings) : Prop where
  violations : first.violations.map Violation.placeless = second.violations.map Violation.placeless
  failure : first.failure.isSome = second.failure.isSome

namespace Findings.Alike

variable {first second third fourth : Findings}

theorem refl (findings : Findings) : findings.Alike findings := ⟨rfl, rfl⟩

theorem reached (place other : NodePlace) : (Findings.reached place).Alike (.reached other) :=
  ⟨rfl, rfl⟩

theorem failed (error other : ValidationError) : (Findings.failed error).Alike (.failed other) :=
  ⟨rfl, rfl⟩

theorem silenced (alike : first.Alike second) : first.silenced.Alike second.silenced :=
  ⟨rfl, alike.failure⟩

theorem isEmpty (alike : first.Alike second) :
    first.violations.isEmpty = second.violations.isEmpty := by
  have lengths := congrArg List.isEmpty alike.violations
  simpa only [List.isEmpty_map] using lengths

/-- One evaluation after another finds the same as those that find the same. -/
theorem andThen (alike : first.Alike second) (later : third.Alike fourth) :
    (first.andThen third).Alike (second.andThen fourth) := by
  have failure := alike.failure
  unfold Findings.andThen
  cases failed : first.failure with
  | some error =>
    rw [failed] at failure
    obtain ⟨other, failedToo⟩ := Option.isSome_iff_exists.mp failure.symm
    simp only [failedToo]
    exact alike
  | none =>
    rw [failed] at failure
    have failedToo : second.failure = none := by simpa using failure.symm
    simp only [failedToo]
    refine ⟨?_, later.failure⟩
    rw [List.map_append, List.map_append, alike.violations, later.violations]

end Findings.Alike

section Judgements

variable {environment : Environment} {site other : Site}

theorem placeless_violation (alike : site.Alike other) (node : ConstraintNode) (template : String)
    (below : Option String) (value : Value) :
    (site.violation environment node template below value).placeless
      = (other.violation environment node template below value).placeless := by
  simp only [Site.violation, Violation.placeless, alike.rootType, alike.bean, alike.property]

theorem judgeOwn_alike (alike : site.Alike other) (value : Value) (node : ConstraintNode) :
    (judgeOwn environment site value node).Alike (judgeOwn environment other value node) := by
  unfold judgeOwn
  cases node.content.validator with
  | none => exact .refl _
  | some named =>
    obtain ⟨name, predicate⟩ := named
    simp only
    cases predicate environment.heap value (.start node.content.template) with
    | error error => exact .failed _ _
    | ok answer =>
      obtain ⟨valid, report⟩ := answer
      cases valid with
      | true => exact .refl _
      | false =>
        refine ⟨?_, rfl⟩
        simp only [Findings.violated, violationsOf, List.map_append, List.map_map,
          Function.comp_def, placeless_violation alike]
        split <;> simp [placeless_violation alike]

mutual

/-- **A constraint finds the same at sites that differ in their paths**, wherever it stands in
metadata. -/
theorem judge_alike (alike : site.Alike other) (place elsewhere : NodePlace) (value : Value)
    (node : ConstraintNode) :
    (judge environment site place value node).Alike
      (judge environment other elsewhere value node) := by
  cases node with
  | mk content composing =>
    have below := judgeAll_alike alike place elsewhere 0 value composing
    have own : (judgeOwn environment site value (.mk content composing)).Alike
        (judgeOwn environment other value (.mk content composing)) := judgeOwn_alike alike value _
    unfold judge
    refine (Findings.Alike.reached place elsewhere).andThen ?_
    split
    · refine below.silenced.andThen ?_
      rw [below.isEmpty]
      split
      · exact own
      · refine ⟨?_, rfl⟩
        simp only [Findings.violated, List.map_cons, List.map_nil, placeless_violation alike]
    · exact below.andThen own

theorem judgeAll_alike (alike : site.Alike other) (place elsewhere : NodePlace) (index : Nat)
    (value : Value) (nodes : List ConstraintNode) :
    (judgeAll environment site place index value nodes).Alike
      (judgeAll environment other elsewhere index value nodes) := by
  cases nodes with
  | nil => exact .refl _
  | cons node rest =>
    unfold judgeAll
    exact (judge_alike alike _ _ value node).andThen
      (judgeAll_alike alike place elsewhere (index + 1) value rest)

end

end Judgements

/-- **A constraint of a property finds the same on a bean**, by whichever way a pass comes there and
wherever the constraint stands among those of the property. -/
theorem Setting.findings_alike {setting other : Setting}
    (environment : other.environment = setting.environment)
    (rootType : other.rootType = setting.rootType)
    (allowing : setting.environment.resolver = .default) {stop elsewhere : Stop}
    (bean : elsewhere.bean = stop.bean) {duty another : Duty} (node : another.node = duty.node)
    (property : another.place.property = duty.place.property) :
    (setting.findings stop duty).Alike (other.findings elsewhere another) := by
  have alike : (setting.site stop duty.place.property).Alike
      (other.site elsewhere another.place.property) := ⟨rootType.symm, bean.symm, property.symm⟩
  have allowed : ∀ site kind, setting.isOpen site kind = .ok true := by
    intro site kind
    simp [isOpen, answer, allowing, Resolver.default]
  have allowedToo : ∀ site kind, other.isOpen site kind = .ok true := by
    intro site kind
    simp [isOpen, answer, environment, allowing, Resolver.default]
  unfold findings
  rw [node, environment, bean]
  cases duty.node.content.access with
  | none => exact judge_alike alike _ _ _ _
  | some access =>
    simp only [allowed, allowedToo]
    unfold Setting.value
    rw [environment, ← alike.bean]
    cases access.read setting.environment.heap (setting.site stop duty.place.property).bean with
    | error error => exact .failed _ _
    | ok value => exact judge_alike alike _ _ value _

end GraphValidation
