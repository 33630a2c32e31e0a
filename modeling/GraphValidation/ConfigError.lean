/-
**Configuration errors.**

What can be wrong with types, constraint definitions, declarations and groups.  None of these is a
violation: the call that meets one has no result.

* `ConfigError` — the causes.
* `ConfigError.message` — their texts.
-/
import GraphValidation.Type.Key
import GraphValidation.Text.Escaped

namespace GraphValidation

/-- Why a type expression is refused. -/
inductive TypeExpressionFault where
  | expectedName
  | unterminatedArguments
  | trailingCharacters
  deriving DecidableEq, Repr

/-- Why a constraint cannot be set up. -/
inductive ConstraintFault where
  | missingAttribute (name : String)
  | missingIntegral (name : String)
  | negativeParameter (name : String)
  | negativeLength
  | unknownFlag (flag : String)
  | invalidPattern
  /-- A definition with neither a validator nor a composing constraint. -/
  | hollow
  /-- A validator's own reason. -/
  | refused (reason : String)
  deriving DecidableEq, Repr

/-- What is wrong with a redefined default sequence. -/
inductive SequenceDefect where
  | containsDefault
  | missingHostType
  | empty
  deriving DecidableEq, Repr

/-- A configuration error. -/
inductive ConfigError where
  | unknownType (type : TypeKey)
  | duplicateType (type : TypeKey)
  | invalidTypeExpression (text : String) (fault : TypeExpressionFault)
  | unknownConstraint (name : String)
  | duplicateConstraint (name : String)
  | noValidatorForType (constraint : String) (target : TypeKey)
  | ambiguousValidators (constraint : String) (target : TypeKey) (candidates : List String)
  | malformedConstraint (constraint : String) (fault : ConstraintFault)
  | cyclicComposition (chain : List String)
  | invalidGroupSequence (host : TypeKey) (defect : SequenceDefect)
  | cyclicGroupSequence (group : TypeKey)
  | duplicateDeclaration (type : TypeKey)
  | unknownBeanId (id : String)
  /-- A property that is declared with two types of which neither is a subtype of the other. -/
  | conflictingMetadata (type : TypeKey) (property : String) (first second : TypeKey)
  deriving DecidableEq, Repr

/-- The text of a fault of a type expression. -/
def TypeExpressionFault.message : TypeExpressionFault → String
  | expectedName => "expected a type name"
  | unterminatedArguments => "unterminated type arguments"
  | trailingCharacters => "trailing characters"

/-- The text of a fault of a constraint. -/
def ConstraintFault.message : ConstraintFault → String
  | missingAttribute name => "missing attribute '" ++ name ++ "'"
  | missingIntegral name => "missing integral attribute '" ++ name ++ "'"
  | negativeParameter name => "the " ++ name ++ " parameter cannot be negative"
  | negativeLength => "the length cannot be negative"
  | unknownFlag flag => "unknown flag '" ++ flag ++ "'"
  | invalidPattern => "invalid regular expression"
  | hollow => "no validator and no composing constraint"
  | refused reason => reason

/-- The text of a defect of a sequence. -/
def SequenceDefect.message : SequenceDefect → String
  | containsDefault => "the Default group cannot appear in a redefined default sequence"
  | missingHostType => "the sequence must contain the hosting type"
  | empty => "the sequence is empty"

/-- The text of a configuration error. -/
def ConfigError.message : ConfigError → String
  | unknownType type => "unknown type '" ++ type.name ++ "'"
  | duplicateType type => "type '" ++ type.name ++ "' already registered"
  | invalidTypeExpression text fault => "invalid type '" ++ text ++ "': " ++ fault.message
  | unknownConstraint name => "unknown constraint '" ++ name ++ "'"
  | duplicateConstraint name => "constraint '" ++ name ++ "' already registered"
  | noValidatorForType constraint target =>
    "no validator for constraint '" ++ constraint ++ "' supports type '" ++ target.name ++ "'"
  | ambiguousValidators constraint target candidates =>
    "ambiguous validators " ++ Text.quoteNames candidates ++ " for constraint '" ++ constraint
      ++ "' on type '" ++ target.name ++ "'"
  | malformedConstraint constraint fault =>
    "malformed constraint '" ++ constraint ++ "': " ++ fault.message
  | cyclicComposition chain =>
    "constraint composition cycle: " ++ String.intercalate " -> " chain
  | invalidGroupSequence host defect =>
    "invalid default group sequence on '" ++ host.name ++ "': " ++ defect.message
  | cyclicGroupSequence group =>
    "cyclic group sequence definition involving '" ++ group.name ++ "'"
  | duplicateDeclaration type => "bean '" ++ type.name ++ "' already declared"
  | unknownBeanId id => "no bean declared with id '" ++ id ++ "'"
  | conflictingMetadata type property first second =>
    "conflicting metadata for '" ++ type.name ++ "." ++ property ++ "': declared as both '"
      ++ first.name ++ "' and '" ++ second.name ++ "'"

end GraphValidation
