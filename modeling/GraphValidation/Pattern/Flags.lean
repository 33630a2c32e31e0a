/-
**Flags of patterns.**

Flags change what the rest of a group means.  Under one of them blanks and comments mean nothing, so
that nearly every step of reading skips them.

* `Flags` — the flags; `Flags.default` is how a pattern starts.
* `Flags.fold`, `Flags.foldChar` — what also matches where case makes no difference.
* `Flags.skip`, `Flags.takeWhile` — reading over what means nothing.
-/
import GraphValidation.Text.Blank
import GraphValidation.Text.Folding

namespace GraphValidation.Pattern

open Text (CharSet)

/-- How the rest of a group is read. -/
structure Flags where
  /-- Letters match without regard to case. -/
  ignoreCase : Bool
  /-- The anchors match at lines. -/
  multiLine : Bool
  /-- The dot matches line ends. -/
  dotAll : Bool
  /-- Blanks and comments in the pattern mean nothing. -/
  spaced : Bool
  /-- Classes and cases are those of Unicode. -/
  unicode : Bool
  /-- Lines may also end in a carriage return. -/
  anyLineEnd : Bool
  /-- Repetitions are short, and long ones are marked, instead of the reverse. -/
  short : Bool
  deriving DecidableEq, Repr

namespace Flags

/-- The flags of a pattern that sets none. -/
def default : Flags := ⟨false, false, false, false, true, false, false⟩

/-- Sets the flag of a letter. -/
def set (flags : Flags) (letter : Char) (value : Bool) : Option Flags :=
  match letter with
  | 'i' => some { flags with ignoreCase := value }
  | 'm' => some { flags with multiLine := value }
  | 's' => some { flags with dotAll := value }
  | 'x' => some { flags with spaced := value }
  | 'u' => some { flags with unicode := value }
  | 'R' => some { flags with anyLineEnd := value }
  | 'U' => some { flags with short := value }
  | _ => none

/-! ### Sets under flags -/

/-- What a set of characters matches. -/
def fold (flags : Flags) (set : CharSet) : CharSet :=
  if !flags.ignoreCase then set else if flags.unicode then set.folded else set.foldedAscii

/-- What a character matches. -/
def foldChar (flags : Flags) (c : Char) : CharSet :=
  if !flags.ignoreCase then .single c
  else if flags.unicode then .ofPoints (Text.foldClass c)
  else (CharSet.single c).foldedAscii

/-- Whether a set may stand in a pattern: without Unicode it has to hold ASCII characters alone. -/
def allows (flags : Flags) (set : CharSet) : Bool := flags.unicode || set.isAscii

/-! ### Blanks and comments -/

/-- Drops blanks and comments where they mean nothing; `inComment` tells whether one is open. -/
def dropGaps : Bool → List Char → List Char
  | _, [] => []
  | true, c :: rest => dropGaps (c != '\n') rest
  | false, c :: rest =>
    if Text.isBlank c then dropGaps false rest
    else if c = '#' then dropGaps true rest
    else c :: rest

/-- Drops what means nothing. -/
def skip (flags : Flags) (text : List Char) : List Char :=
  if flags.spaced then dropGaps false text else text

/-- The characters at the front that fit, without the blanks and comments around them; `inComment`
tells whether a comment is open. -/
def takeSpaced (fits : Char → Bool) : Bool → List Char → List Char × List Char
  | _, [] => ([], [])
  | true, c :: rest => takeSpaced fits (c != '\n') rest
  | false, c :: rest =>
    if Text.isBlank c then takeSpaced fits false rest
    else if c = '#' then takeSpaced fits true rest
    else if fits c then
      let (taken, rest) := takeSpaced fits false rest
      (c :: taken, rest)
    else ([], c :: rest)

/-- The characters at the front that fit, without what means nothing around them. -/
def takeWhile (flags : Flags) (fits : Char → Bool) (text : List Char) : List Char × List Char :=
  if flags.spaced then takeSpaced fits false text else text.span fits

/-- The characters between an opening brace, which has been read, and the closing one. -/
def takeBraced (flags : Flags) (text : List Char) : Option (List Char × List Char) :=
  match flags.takeWhile (· != '\x7d') text with
  | (inside, _ :: rest) => some (inside, rest)
  | (_, []) => none

end Flags

end GraphValidation.Pattern
