/-
**Violations.**

A violation says which constraint a value violates, where in the graph, and with which message.

* `Violation` — one violation.
* `Violation.equal` — equality of all its parts; beans are compared by identity.
* `Violation.text`, `Violation.toJson` — the line of a report, and the document tree.
-/
import GraphValidation.Constraint.Node
import GraphValidation.Path

namespace GraphValidation

/-- One violation. -/
structure Violation where
  path : Path
  message : String
  template : String
  rootType : Option TypeKey
  /-- The bean on which the constraint was evaluated. -/
  leafBean : Option BeanRef
  property : Option String
  invalid : Value
  constraint : Option ConstraintDescriptor

namespace Violation

/-- The identity of the bean on which the constraint was evaluated. -/
def owner? (violation : Violation) : Option String := violation.leafBean.map (·.id)

/-- Equality of constraints that may be missing. -/
def equalConstraint : Option ConstraintDescriptor → Option ConstraintDescriptor → Bool
  | none, none => true
  | some a, some b => a.equal b
  | _, _ => false

/-- Equality of all parts. -/
def equal (a b : Violation) : Bool :=
  a.message == b.message && a.template == b.template && a.rootType == b.rootType
    && a.owner? == b.owner? && a.property == b.property && a.path == b.path
    && a.invalid.equal b.invalid && equalConstraint a.constraint b.constraint

/-- The line of a report. -/
def text (violation : Violation) : String :=
  (if violation.path.isRoot then "(root)" else violation.path.text) ++ ": " ++ violation.message

/-- The document tree. -/
def toJson (violation : Violation) : Json :=
  .ofEntries
    [("path", .string violation.path.text), ("message", .string violation.message),
     ("messageTemplate", .string violation.template),
     ("property", .ofOption .string violation.property),
     ("invalidValue", violation.invalid.toJson),
     ("constraint", .ofOption ConstraintDescriptor.toJson violation.constraint)]

/-- Equality of lists of violations, in order. -/
def equalAll : List Violation → List Violation → Bool
  | [], [] => true
  | a :: as, b :: bs => a.equal b && equalAll as bs
  | _, _ => false

end Violation

end GraphValidation
