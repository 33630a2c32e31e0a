/-
**Built-in constraints.**

Null is valid for all of them but the ones that ask for a value: `NotNull`, `NotBlank` and
`NotEmpty`.  A value of a kind that a constraint does not speak of is an error, not a violation.

* `Builtin.atLeast`, `Builtin.atMost`, `Builtin.sizeBetween`, … — the predicates.
* `Builtin.definitions` — the definitions.
* `Catalog.builtin` — the catalog that holds them.
-/
import GraphValidation.Constraint.Definition
import GraphValidation.Pattern.Basic

namespace GraphValidation

namespace Builtin

/-- The error for a value of a kind that a constraint does not speak of. -/
def mismatch (constraint expected : String) (value : Value) : PredicateError :=
  ⟨constraint ++ " expects " ++ expected ++ ", got " ++ value.toJson.print⟩

/-! ### Predicates -/

def notNull : Predicate := Predicate.test fun value => .ok !value.isNull

def isNull : Predicate := Predicate.test fun value => .ok value.isNull

/-- A given truth value. -/
def isBool (expected : Bool) : Predicate := Predicate.test fun value =>
  match value with
  | .null => .ok true
  | .bool value => .ok (value == expected)
  | other => .error (mismatch "Assert" "a boolean" other)

/-- A text with a character that is no blank. -/
def notBlank : Predicate := Predicate.test fun value =>
  match value with
  | .null => .ok false
  | .string text => .ok !(Text.trim text.toList).isEmpty
  | other => .error (mismatch "NotBlank" "a string" other)

/-- A number that is not below a limit.  NaN is below and above everything. -/
def atLeast (limit : Int64) : Predicate := Predicate.test fun value =>
  match value with
  | .null => .ok true
  | .int value => .ok (decide (limit ≤ value))
  | .float value =>
    let limit := Binary64.ofInt limit.toInt
    .ok (limit.less value || limit.equal value)
  | other => .error (mismatch "Min" "a number" other)

/-- A number that is not above a limit. -/
def atMost (limit : Int64) : Predicate := Predicate.test fun value =>
  match value with
  | .null => .ok true
  | .int value => .ok (decide (value ≤ limit))
  | .float value =>
    let limit := Binary64.ofInt limit.toInt
    .ok (value.less limit || value.equal limit)
  | other => .error (mismatch "Max" "a number" other)

/-- The greatest size that a size constraint asks for by default. -/
def greatestSize : Int64 := 2147483647

/-- A text or a container with a size between two limits. -/
def sizeBetween (least most : Int64) : Predicate := Predicate.test fun value =>
  if value.isNull then .ok true
  else match value.size? with
    | some size => .ok (decide (least.toInt ≤ size) && decide ((size : Int) ≤ most.toInt))
    | none => .error (mismatch "Size" "a string or a container" value)

/-- A text with a match of a program; where the empty text is exempt, it is valid. -/
def isMatch (constraint : String) (emptyIsValid : Bool) (program : Pattern.Program) : Predicate :=
  Predicate.test fun value =>
    match value with
    | .null => .ok true
    | .string text => .ok ((emptyIsValid && text.isEmpty) || program.accepts text)
    | other => .error (mismatch constraint "a string" other)

/-- The predicate of a validator whose pattern is not set up. -/
def withoutPattern (constraint : String) : Predicate :=
  Predicate.failing (constraint ++ " validator used before initialization")

/-! ### Validators -/

/-- The limit of a bound. -/
def setUpBound (constraint : String) (predicate : Int64 → Predicate) (attributes : Attributes) :
    Except ConfigError Predicate :=
  match attributes.int? "value" with
  | some limit => .ok (predicate limit)
  | none => .error (.malformedConstraint constraint (.missingIntegral "value"))

/-- The limits of a size. -/
def setUpSize (attributes : Attributes) : Except ConfigError Predicate :=
  let least := (attributes.int? "min").getD 0
  let most := (attributes.int? "max").getD greatestSize
  if least < 0 then .error (.malformedConstraint "Size" (.negativeParameter "min"))
  else if most < 0 then .error (.malformedConstraint "Size" (.negativeParameter "max"))
  else if most < least then .error (.malformedConstraint "Size" .negativeLength)
  else .ok (sizeBetween least most)

/-- Sets the flags of a pattern that a list of names gives. -/
def readFlagNames (flags : Pattern.Flags) : List AttributeValue → Except ConfigError Pattern.Flags
  | [] => .ok flags
  | name :: rest => match name.text with
    | "CASE_INSENSITIVE" => readFlagNames { flags with ignoreCase := true } rest
    | "MULTILINE" => readFlagNames { flags with multiLine := true } rest
    | "DOTALL" => readFlagNames { flags with dotAll := true } rest
    | other => .error (.malformedConstraint "Pattern" (.unknownFlag other))

/-- The pattern of a text.  Flags count only where they are a list. -/
def setUpPattern (attributes : Attributes) : Except ConfigError Predicate :=
  match attributes.string? "regexp" with
  | none => .error (.malformedConstraint "Pattern" (.missingAttribute "regexp"))
  | some text => do
    let flags ← match attributes.get? "flags" with
      | some (.list names) => readFlagNames Pattern.Flags.default names
      | _ => .ok Pattern.Flags.default
    match Pattern.compile? flags (Pattern.whole text) with
    | some program => .ok (isMatch "Pattern" false program)
    | none => .error (.malformedConstraint "Pattern" .invalidPattern)

/-- The pattern of an address: words of printable characters with dots between them, and a host of
at least two labels that neither start nor end with a hyphen. -/
def emailPattern : String :=
  let word := "[A-Za-z0-9!#$%&'*+/=?^_\x60\x7b|\x7d~-]+"
  let label := "[A-Za-z0-9]([A-Za-z0-9-]*[A-Za-z0-9])?"
  "^" ++ word ++ "(\\." ++ word ++ ")*@(" ++ label ++ "\\.)+" ++ label ++ "$"

/-- The program of the pattern of an address. -/
def emailProgram? : Option Pattern.Program :=
  Pattern.compile? Pattern.Flags.default emailPattern

/-- The pattern of an address; there are no attributes. -/
def setUpEmail (_ : Attributes) : Except ConfigError Predicate :=
  match emailProgram? with
  | some program => .ok (isMatch "Email" true program)
  | none => .error (.malformedConstraint "Email" .invalidPattern)

/-- The validator of a size for values of a type. -/
def sizeCandidate (name : String) (supported : TypeKey) : Candidate :=
  ⟨name, supported, sizeBetween 0 greatestSize, setUpSize⟩

/-! ### Definitions -/

/-- The definitions of the built-in constraints. -/
def definitions : List ConstraintDefinition :=
  [.ofValidators "NotNull" [.ofPredicate "NotNullValidator" .object notNull],
   .ofValidators "Null" [.ofPredicate "NullValidator" .object isNull],
   .ofValidators "AssertTrue" [.ofPredicate "AssertTrueValidator" .boolean (isBool true)],
   .ofValidators "AssertFalse" [.ofPredicate "AssertFalseValidator" .boolean (isBool false)],
   .ofValidators "Min" [⟨"MinValidatorForNumber", .number, atLeast 0, setUpBound "Min" atLeast⟩],
   .ofValidators "Max" [⟨"MaxValidatorForNumber", .number, atMost 0, setUpBound "Max" atMost⟩],
   { ConstraintDefinition.ofValidators "Size"
       [sizeCandidate "SizeValidatorForCharSequence" .charSequence,
        sizeCandidate "SizeValidatorForCollection" .collection,
        sizeCandidate "SizeValidatorForMap" .map,
        sizeCandidate "SizeValidatorForArray" .array] with
     defaults := .ofList [("min", .int 0), ("max", .int greatestSize)] },
   { ConstraintDefinition.ofValidators "Pattern"
       [⟨"PatternValidator", .charSequence, withoutPattern "Pattern", setUpPattern⟩] with
     defaults := .ofList [("flags", .list [])] },
   .ofValidators "Email" [⟨"EmailValidator", .charSequence, withoutPattern "Email", setUpEmail⟩],
   .ofValidators "NotBlank" [.ofPredicate "NotBlankValidator" .charSequence notBlank],
   { ConstraintDefinition.ofValidators "NotEmpty" [] with
     composedOf :=
       [.plain "NotNull",
        { ConstraintDeclaration.plain "Size" with attributes := .ofList [("min", .int 1)] }]
     single := true }]

end Builtin

/-- The catalog of the built-in constraints. -/
def Catalog.builtin : Catalog := ⟨Builtin.definitions⟩

instance : Inhabited Catalog := ⟨.builtin⟩

end GraphValidation
