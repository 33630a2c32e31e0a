/-
**Predicates of constraints.**

A predicate looks at a value and at the members of beans, and says whether the value is valid.  On
the way it may add violations of its own to a report and switch off the one that stands for the
constraint.

* `Report` — what a predicate has said besides its answer.
* `Predicate` — a predicate, which may also fail.
* `Candidate` — a validator: the supported type, and the predicate for given attributes.
* `Predicate.always` … `Predicate.acting` — predicates to build validators from.
-/
import GraphValidation.Attribute
import GraphValidation.Value.Heap
import GraphValidation.ConfigError

namespace GraphValidation

/-- A violation that a predicate adds, on the validated value or on a property below it. -/
structure CustomViolation where
  template : String
  property : Option String
  deriving DecidableEq, Repr

/-- What a predicate says besides its answer. -/
structure Report where
  /-- The template of the constraint. -/
  template : String
  /-- Whether an invalid value also violates the constraint itself. -/
  defaultEnabled : Bool
  /-- The added violations, in order. -/
  custom : List CustomViolation
  deriving DecidableEq, Repr

namespace Report

/-- The report that a predicate starts with. -/
def start (template : String) : Report := ⟨template, true, []⟩

/-- Switches off the violation of the constraint itself. -/
def disableDefault (report : Report) : Report := { report with defaultEnabled := false }

/-- Adds a violation. -/
def add (report : Report) (template : String) (property : Option String) : Report :=
  { report with custom := report.custom ++ [⟨template, property⟩] }

end Report

/-- Why a predicate has no answer. -/
structure PredicateError where
  message : String
  deriving DecidableEq, Repr

/-- A predicate on values. -/
abbrev Predicate := Heap → Value → Report → Except PredicateError (Bool × Report)

/-- A validator of a constraint. -/
structure Candidate where
  name : String
  /-- The type whose values the validator is for. -/
  supported : TypeKey
  /-- The predicate before attributes are given. -/
  blank : Predicate
  /-- The predicate for some attributes. -/
  setUp : Attributes → Except ConfigError Predicate

namespace Predicate

/-- The predicate that answers by a test of the value alone. -/
def test (holds : Value → Except PredicateError Bool) : Predicate := fun _ value report =>
  match holds value with
  | .ok valid => .ok (valid, report)
  | .error error => .error error

/-- The same answer for every value. -/
def always (answer : Bool) : Predicate := test fun _ => .ok answer

/-- No answer for any value. -/
def failing (message : String) : Predicate := test fun _ => .error ⟨message⟩

/-- Equality with a value. -/
def equals (wanted : Value) : Predicate := test fun value => .ok (value.equal wanted)

/-- Equality of what may be missing. -/
def equalMembers : Option Value → Option Value → Bool
  | none, none => true
  | some a, some b => a.equal b
  | _, _ => false

/-- Equality of two fields of a bean; other values are valid. -/
def fieldsEqual (first second : String) : Predicate := fun heap value report =>
  match value with
  | .bean bean => .ok (equalMembers (heap.field? bean first) (heap.field? bean second), report)
  | _ => .ok (true, report)

/-- Divisibility of an integer by an attribute. -/
def multipleOf (name : String) (attributes : Attributes) : Predicate := test fun value =>
  if value.isNull then .ok true
  else match attributes.int? name with
    | none => .error ⟨"no divisor '" ++ name ++ "'"⟩
    | some divisor =>
      if divisor = 0 then .error ⟨"no divisor '" ++ name ++ "'"⟩
      else match value with
        | .int value => .ok (decide (value.toInt.tmod divisor.toInt = 0))
        | other => .error ⟨"not an integer: " ++ other.text⟩

/-- What a predicate does to its report before it answers. -/
inductive Action where
  | add (violation : CustomViolation)
  | disableDefault

/-- The report after an action. -/
def Action.apply (report : Report) : Action → Report
  | add violation => report.add violation.template violation.property
  | disableDefault => report.disableDefault

/-- A predicate that acts on its report first. -/
def acting (actions : List Action) (predicate : Predicate) : Predicate := fun heap value report =>
  predicate heap value (actions.foldl Action.apply report)

end Predicate

namespace Candidate

/-- A validator that needs no attributes. -/
def ofPredicate (name : String) (supported : TypeKey) (predicate : Predicate) : Candidate :=
  ⟨name, supported, predicate, fun _ => .ok predicate⟩

/-- A validator whose predicate may use any attributes. -/
def ofAttributes (name : String) (supported : TypeKey) (predicate : Attributes → Predicate) :
    Candidate :=
  ⟨name, supported, predicate .empty, fun attributes => .ok (predicate attributes)⟩

/-- The validator that acts on its report before it answers. -/
def acting (actions : List Predicate.Action) (candidate : Candidate) : Candidate :=
  { candidate with
    blank := candidate.blank.acting actions
    setUp := fun attributes => (candidate.setUp attributes).map (Predicate.acting actions) }

/-- The validator that refuses to be set up. -/
def refusing (constraint reason : String) (candidate : Candidate) : Candidate :=
  { candidate with
    setUp := fun _ => .error (.malformedConstraint constraint (.refused reason)) }

end Candidate

end GraphValidation
