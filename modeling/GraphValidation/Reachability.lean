/-
**Reachability.**

Before a property is read to evaluate a constraint or to go on from it, a resolver is asked whether
the property may be read at all, and whether validation may go on from it.

* `ReachabilityRequest` — what a resolver is told.
* `Resolver` — the two questions.
* `Resolver.ofRules` — a resolver that answers by the first rule that applies.
-/
import GraphValidation.Access
import GraphValidation.Path

namespace GraphValidation

/-- What a resolver is asked. -/
inductive Question where
  | reachable
  | cascadable
  deriving DecidableEq, Repr

/-- The name of a question. -/
def Question.name : Question → String
  | reachable => "is_reachable"
  | cascadable => "is_cascadable"

/-- What a resolver is told. -/
structure ReachabilityRequest where
  /-- The bean that has the property. -/
  bean : Value
  /-- The node of the property in its path. -/
  node : Path.Node
  rootType : Option TypeKey
  pathToBean : Path
  kind : ElementKind

/-- Answers to the two questions, or a reason why there is none. -/
structure Resolver where
  answer : Question → ReachabilityRequest → Except String Bool

namespace Resolver

/-- Everything may be read, and validation may go on from everything. -/
def default : Resolver := ⟨fun _ _ => .ok true⟩

/-- The same function for both questions. -/
def ofFunction (answer : ReachabilityRequest → Except String Bool) : Resolver :=
  ⟨fun _ request => answer request⟩

/-- An answer for the requests that meet all given conditions. -/
structure Rule where
  question : Option String
  node : Option String
  pathToBean : Option String
  kind : Option String
  answer : Except String Bool

/-- Whether a condition, where one is given, is met. -/
def meets (condition : Option String) (actual : Option String) : Bool :=
  condition.isNone || condition == actual

/-- Whether a rule applies to a request of a question. -/
def Rule.applies (rule : Rule) (question : String) (request : ReachabilityRequest) : Bool :=
  meets rule.question (some question) && meets rule.node request.node.name
    && meets rule.pathToBean (some request.pathToBean.text)
    && meets rule.kind (some request.kind.name)

/-- The answer of the first rule that applies; where none does, everything is allowed. -/
def answerByRules (rules : List Rule) (question : String) (request : ReachabilityRequest) :
    Except String Bool :=
  match rules.find? fun rule => rule.applies question request with
  | some rule => rule.answer
  | none => .ok true

/-- The resolver that answers by the first rule that applies. -/
def ofRules (rules : List Rule) : Resolver :=
  ⟨fun question request => answerByRules rules question.name request⟩

end Resolver

end GraphValidation
