/-
**Results of a validation.**

The violations of a call are kept in the order in which they were found, each once.  What they are
looked up by is kept beside them, as the positions at which they stand.

* `ViolationKey` — what two violations agree in before they are compared as a whole.
* `ValidationResults` — violations without repetition, with their positions.
* `ValidationResults.add`, `ValidationResults.merge` — one more violation, or those of other
  results.
* `Violations` — at least one violation, as a failure.
-/
import GraphValidation.Violation

namespace GraphValidation

/-- What two violations agree in before they are compared as a whole. -/
structure ViolationKey where
  template : String
  message : String
  path : Path
  owner : Option String
  property : Option String
  deriving DecidableEq, Repr

def Violation.key (violation : Violation) : ViolationKey where
  template := violation.template
  message := violation.message
  path := violation.path
  owner := violation.owner?
  property := violation.property

/-- Violations without repetition, and the positions at which they stand. -/
structure ValidationResults where
  violations : List Violation
  seen : List (ViolationKey × List Nat)
  reasons : List (String × List Nat)
  /-- For each bean, and for none, the positions by property, or by none. -/
  owners : List (Option String × List (Option String × List Nat))

namespace ValidationResults

def empty : ValidationResults := ⟨[], [], [], []⟩

/-- Whether an equal violation is there.  Only violations with the same key are compared. -/
def isKnown (results : ValidationResults) (violation : Violation) : Bool :=
  (entryAt [] results.seen violation.key).any fun position =>
    results.violations[position]?.any fun kept => kept.equal violation

/-- The results with one more violation, unless an equal one is there. -/
def add (results : ValidationResults) (violation : Violation) : ValidationResults :=
  if results.isKnown violation then results
  else
    let record := (· ++ [results.violations.length])
    { violations := results.violations ++ [violation]
      seen := changeEntry violation.key [] record results.seen
      reasons := changeEntry violation.template [] record results.reasons
      owners := changeEntry violation.owner? [] (changeEntry violation.property [] record)
        results.owners }

/-- The results with more violations, in order. -/
def addAll (results : ValidationResults) (violations : List Violation) : ValidationResults :=
  violations.foldl add results

/-- The results with those of another call. -/
def merge (results other : ValidationResults) : ValidationResults := results.addAll other.violations

/-- The results of some violations, in order. -/
def ofList (violations : List Violation) : ValidationResults := empty.addAll violations

def size (results : ValidationResults) : Nat := results.violations.length

/-- The violations at some positions. -/
def lookup (results : ValidationResults) (positions : List Nat) : List Violation :=
  positions.filterMap fun position => results.violations[position]?

/-- The violations with a template. -/
def byReason (results : ValidationResults) (template : String) : List Violation :=
  results.lookup (entryAt [] results.reasons template)

/-- The violations on a bean, or on none, with a property, or with none. -/
def byOwnerProperty (results : ValidationResults) (owner property : Option String) :
    List Violation :=
  results.lookup (entryAt [] (entryAt [] results.owners owner) property)

/-- The violations with a property. -/
def forProperty (results : ValidationResults) (property : String) : List Violation :=
  results.violations.filter fun violation => violation.property == some property

end ValidationResults

/-- At least one violation. -/
structure Violations where
  first : Violation
  rest : List Violation

namespace Violations

/-- All violations, in order. -/
def toList (violations : Violations) : List Violation := violations.first :: violations.rest

/-- The violations of a list that holds one. -/
def ofList? : List Violation → Option Violations
  | [] => none
  | first :: rest => some ⟨first, rest⟩

/-- One violation. -/
def single (violation : Violation) : Violations := ⟨violation, []⟩

/-- The violations of two failures, in order. -/
def combine (a b : Violations) : Violations := ⟨a.first, a.rest ++ b.toList⟩

def size (violations : Violations) : Nat := violations.toList.length

/-- The violations at a path. -/
def atPath (violations : Violations) (path : Path) : List Violation :=
  violations.toList.filter fun violation => violation.path == path

/-- The violations with a template. -/
def withTemplate (violations : Violations) (template : String) : List Violation :=
  violations.toList.filter fun violation => violation.template == template

/-- The lines of a report, counted from a number. -/
def lines (count : Nat) : List Violation → String
  | [] => ""
  | violation :: rest =>
    "  " ++ toString count ++ ". " ++ violation.text ++ "\n" ++ lines (count + 1) rest

/-- The report: a headline, and a line for each violation. -/
def text (violations : Violations) : String :=
  "Validation failed with " ++ toString violations.size ++ " violation(s):\n"
    ++ lines 1 violations.toList

/-- Equality of all violations, in order. -/
def equal (a b : Violations) : Bool := Violation.equalAll a.toList b.toList

end Violations

/-- The results as a failure, if there are any violations. -/
def ValidationResults.toFailure? (results : ValidationResults) : Option Violations :=
  Violations.ofList? results.violations

end GraphValidation
