/-
**Errors that end a validation.**

A call that meets one of these has no result; they are never turned into violations.

* `ValidationError` — the causes.
* `ValidationError.message` — their texts.
-/
import GraphValidation.Access
import GraphValidation.Constraint.Predicate
import GraphValidation.Path.Reader
import GraphValidation.Reachability

namespace GraphValidation

/-- An error that ends a validation. -/
inductive ValidationError where
  | config (error : ConfigError)
  /-- A property at a path that cannot be read. -/
  | access (path : String) (error : AccessError)
  /-- A resolver without an answer about a bean. -/
  | resolver (question : Question) (bean source : String)
  /-- A predicate without an answer. -/
  | predicate (constraint validator path : String) (error : PredicateError)
  | nullRoot
  | invalidPath (error : PathError)
  | unknownProperty (type : TypeKey) (property : String)
  deriving DecidableEq, Repr

/-- The text of an error. -/
def ValidationError.message : ValidationError → String
  | config error => error.message
  | access path error => "cannot access property at '" ++ path ++ "': " ++ error.message
  | resolver question bean _ =>
    "error in TraversableResolver." ++ question.name ++ "() for " ++ bean
  | predicate constraint validator path error =>
    "validator '" ++ validator ++ "' for constraint '" ++ constraint ++ "' failed at '" ++ path
      ++ "': " ++ error.message
  | nullRoot => "the validated object cannot be null"
  | invalidPath error => error.message
  | unknownProperty type property =>
    "'" ++ property ++ "' is not a validated property of '" ++ type.name ++ "'"

end GraphValidation
