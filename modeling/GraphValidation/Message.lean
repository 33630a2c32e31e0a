/-
**Messages from templates.**

A template becomes a message in three passes.  Parameters that name an entry of the message bundle
are replaced by the entry, whose own parameters are resolved in turn up to a fixed depth; parameters
that name an attribute are replaced by its text; the expression for the validated value is replaced
by the text of the value.  A backslash protects the character after it from every pass, and is
dropped at the end.  What is inserted for attributes and values is protected, so it is never read
again.

* `Template.substitute` — one pass over a text.
* `Bundle.resolve` — the pass that resolves bundle entries.
* `Bundle.interpolate` — the whole way from a template to a message.
-/
import GraphValidation.Attribute

namespace GraphValidation

namespace Template

/-- What introduces a parameter. -/
inductive Opening where
  /-- A brace that does not directly follow a dollar sign. -/
  | parameter
  /-- A dollar sign and a brace. -/
  | expression
  deriving DecidableEq, Repr

/-- What follows the opening of a parameter, where the character `c` after `previous` and before
`rest` starts one. -/
def Opening.body? (opening : Opening) (previous : Option Char) (c : Char) (rest : List Char) :
    Option (List Char) :=
  match opening with
  | parameter => if c = '\x7b' ∧ previous ≠ some '$' then some rest else none
  | expression => match rest with
    | d :: after => if c = '$' ∧ d = '\x7b' then some after else none
    | [] => none

/-- The name of a parameter and what follows its closing brace.  A name holds no opening brace. -/
def splitName : List Char → Option (List Char × List Char)
  | [] => none
  | c :: rest =>
    if c = '\x7d' then some ([], rest)
    else if c = '\x7b' then none
    else (splitName rest).map fun split => (c :: split.1, split.2)

/-- A name that may stand between braces. -/
def Braceless (name : List Char) : Prop := '\x7b' ∉ name ∧ '\x7d' ∉ name

/-- A name is split off at the first closing brace, unless an opening one comes before. -/
theorem splitName_eq_some {text name rest : List Char} :
    splitName text = some (name, rest) ↔ text = name ++ '\x7d' :: rest ∧ Braceless name := by
  induction text generalizing name with
  | nil => simp [splitName]
  | cons c text ih =>
    rw [splitName]
    by_cases closes : c = '\x7d'
    · cases name <;> grind [Braceless]
    · by_cases opens : c = '\x7b'
      · cases name <;> grind [Braceless]
      · cases name with
        | nil => simp [closes, opens]
        | cons d name =>
          simp only [closes, opens, if_false, Option.map_eq_some_iff, Prod.mk.injEq, List.cons.injEq,
            Prod.exists, List.cons_append]
          constructor
          · rintro ⟨name', rest', split, ⟨rfl, rfl⟩, rfl⟩
            obtain ⟨rfl, braceless⟩ := ih.1 split
            exact ⟨⟨rfl, rfl⟩, by simp_all [Braceless, eq_comm]⟩
          · rintro ⟨⟨rfl, same⟩, braceless⟩
            exact ⟨name, rest, ih.2 ⟨same, by simp_all [Braceless]⟩, ⟨rfl, rfl⟩, rfl⟩

theorem length_of_splitName {text name rest : List Char}
    (split : splitName text = some (name, rest)) : rest.length < text.length := by
  obtain ⟨rfl, -⟩ := splitName_eq_some.1 split
  simp only [List.length_append, List.length_cons]
  omega

theorem Opening.length_of_body? {opening : Opening} {previous : Option Char} {c : Char}
    {rest body : List Char} (opens : opening.body? previous c rest = some body) :
    body.length ≤ rest.length := by
  cases opening with
  | parameter =>
    simp only [body?] at opens
    split at opens <;> simp_all
  | expression =>
    simp only [body?] at opens
    split at opens
    · split at opens
      · simp only [Option.some.injEq] at opens
        simp [← opens]
      · simp at opens
    · simp at opens

/-- The name that a parameter starting at `c` has, and what follows the parameter. -/
def parameter? (opening : Opening) (previous : Option Char) (c : Char) (rest : List Char) :
    Option (List Char × List Char) :=
  (opening.body? previous c rest).bind splitName

theorem length_of_parameter? {opening : Opening} {previous : Option Char} {c : Char}
    {rest name after : List Char}
    (found : parameter? opening previous c rest = some (name, after)) :
    after.length < rest.length := by
  obtain ⟨body, opens, split⟩ := Option.bind_eq_some_iff.1 found
  have shorter := length_of_splitName split
  have inside := Opening.length_of_body? opens
  omega

/-- Replaces the parameters that have a replacement.  A backslash and the character after it are
copied. -/
def substitute (opening : Opening) (lookup : List Char → Option (List Char))
    (previous : Option Char) : List Char → List Char
  | [] => []
  | c :: rest =>
    if c = '\\' then
      match rest with
      | [] => [c]
      | d :: after => c :: d :: substitute opening lookup (some d) after
    else
      match _found : parameter? opening previous c rest with
      | some (name, after) =>
        match lookup name with
        | some replacement => replacement ++ substitute opening lookup (some '\x7d') after
        | none => c :: substitute opening lookup (some c) rest
      | none => c :: substitute opening lookup (some c) rest
  termination_by text => text.length
  decreasing_by
    all_goals simp only [List.length_cons]
    · omega
    · have := length_of_parameter? _found
      omega
    all_goals omega

/-- A character that a pass could read as something else than itself. -/
def isSpecial (c : Char) : Bool := c == '\\' || c == '\x7b' || c == '\x7d' || c == '$'

/-- Protects each special character with a backslash. -/
def escape (text : List Char) : List Char :=
  text.flatMap fun c => if isSpecial c then ['\\', c] else [c]

/-- Drops each backslash and keeps the character after it; one at the end stays. -/
def unescape : List Char → List Char
  | [] => []
  | [c] => [c]
  | c :: d :: rest => if c = '\\' then d :: unescape rest else c :: unescape (d :: rest)

end Template

/-- The entries of a message bundle. -/
structure Bundle where
  messages : List (String × String)

namespace Bundle

/-- The key of the default message of a constraint. -/
def defaultKey (constraint : String) : String := "beanval." ++ constraint ++ ".message"

/-- The default template of a constraint: the parameter that names its default message. -/
def defaultTemplate (constraint : String) : String := "\x7b" ++ defaultKey constraint ++ "\x7d"

/-- The messages of the built-in constraints. -/
def builtin : Bundle where
  messages :=
    [("NotNull", "may not be null"),
     ("Null", "must be null"),
     ("AssertTrue", "must be true"),
     ("AssertFalse", "must be false"),
     ("Min", "must be greater than or equal to \x7bvalue\x7d"),
     ("Max", "must be less than or equal to \x7bvalue\x7d"),
     ("Size", "size must be between \x7bmin\x7d and \x7bmax\x7d"),
     ("Pattern", "must match \"\x7bregexp\x7d\""),
     ("Email", "not a well-formed email address"),
     ("NotBlank", "may not be blank"),
     ("NotEmpty", "may not be empty")].map fun entry => (defaultKey entry.1, entry.2)

/-- The bundle with one more message, in place of an earlier one of the same key. -/
def withMessage (bundle : Bundle) (key message : String) : Bundle :=
  ⟨insertEntry key message bundle.messages⟩

/-- The message of a key. -/
def message? (bundle : Bundle) (key : String) : Option String := bundle.messages.lookup key

/-- How deep entries may name each other; deeper ones stay as they are. -/
def depthLimit : Nat := 10

/-- Resolves the parameters that name entries, with `depth` levels left. -/
def resolve (bundle : Bundle) : Nat → List Char → List Char
  | 0, template => template
  | depth + 1, template =>
    Template.substitute .parameter
      (fun key => (bundle.message? (String.ofList key)).map fun message =>
        resolve bundle depth message.toList)
      none template

/-- The name that stands for the validated value. -/
def valueName : List Char := "validatedValue".toList

/-- The message of a template, for the attributes of a constraint and a validated value. -/
def interpolate (bundle : Bundle) (template : String) (attributes : Attributes) (value : Value) :
    String :=
  let resolved := bundle.resolve depthLimit template.toList
  let filled := Template.substitute .parameter
    (fun name => (attributes.get? (String.ofList name)).map fun found =>
      Template.escape found.text.toList)
    none resolved
  let whole := Template.substitute .expression
    (fun name => if name = valueName then some (Template.escape value.text.toList) else none)
    none filled
  String.ofList (Template.unescape whole)

end Bundle

end GraphValidation
