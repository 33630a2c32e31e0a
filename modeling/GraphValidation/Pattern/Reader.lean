/-
**Reading patterns.**

The syntax of patterns: alternatives, repetitions, groups with flags and names, bracketed classes
and escapes.  There are no references to groups and no look-around.  A text that breaks a rule is no
pattern, whatever the rule, so a reader answers nothing else than that.

* `readCounts` — how often something is repeated.
* `readOpening` — what an opening parenthesis introduces.
* `readPattern` — a whole pattern.
-/
import GraphValidation.Pattern.Bracket
import GraphValidation.Number.Reader
import GraphValidation.Text.Class

namespace GraphValidation.Pattern

open Text (CharSet)

/-! ### Repetitions -/

/-- How often something is repeated. -/
structure Counts where
  least : Nat
  most : Option Nat

/-- A number of repetitions, with blanks around it. -/
def readCount (flags : Flags) (text : List Char) : Option (Nat × List Char) :=
  let (digits, rest) := flags.takeWhile Char.isDigit (text.dropWhile Text.isBlank)
  if digits.isEmpty || Nat.pow 2 32 ≤ digitsValue digits then none
  else some (digitsValue digits, rest.dropWhile Text.isBlank)

/-- How often something is repeated, after an opening brace. -/
def readCounts (flags : Flags) (text : List Char) : Option (Counts × List Char) := do
  let (least, rest) ← readCount flags (flags.skip text)
  match rest with
  | '\x7d' :: rest => some (⟨least, some least⟩, rest)
  | ',' :: rest => match flags.skip rest with
    | '\x7d' :: rest => some (⟨least, none⟩, rest)
    | rest => match readCount flags rest with
      | some (most, '\x7d' :: rest) =>
        if least ≤ most then some (⟨least, some most⟩, rest) else none
      | _ => none
  | _ => none

/-! ### Groups -/

/-- The flags of a group, up to the colon or the parenthesis that ends them.  `seen` holds their
letters, `negating` tells whether a hyphen came before; the answer tells whether a colon came. -/
def readFlags (flags : Flags) (seen : List Char) (negating : Bool) :
    List Char → Option (Flags × Bool × List Char)
  | [] => none
  | c :: rest =>
    if c = ':' ∨ c = ')' then
      if seen.head? == some '-' || (seen.isEmpty && c == ')') then none
      else some (flags, c == ':', rest)
    else if seen.contains c then none
    else if c = '-' then readFlags flags (c :: seen) true rest
    else match flags.set c (!negating) with
      | some flags => readFlags flags (c :: seen) negating rest
      | none => none

/-- Whether a character may stand in the name of a group. -/
def isGroupNameChar (first : Bool) (c : Char) : Bool :=
  if first then c == '_' || Text.isAlphabetic c
  else c == '_' || c == '.' || c == '[' || c == ']' || Text.isAlphanumeric c

/-- The name of a group, up to its closing angle bracket. -/
def readGroupName (text : List Char) : Option (List Char × List Char) :=
  match text.span (· != '>') with
  | (c :: name, _ :: rest) =>
    if isGroupNameChar true c && name.all (isGroupNameChar false) then some (c :: name, rest)
    else none
  | _ => none

/-- What an opening parenthesis introduces. -/
inductive Opened where
  /-- A group with a number of its own, and perhaps a name. -/
  | numbered (name : Option (List Char))
  /-- A group under other flags. -/
  | plain (flags : Flags)
  /-- Other flags for the rest of the group around it. -/
  | flags (flags : Flags)

/-- What an opening parenthesis introduces, after it. -/
def readOpening (flags : Flags) (text : List Char) : Option (Opened × List Char) :=
  let named := fun (text : List Char) =>
    (readGroupName text).map fun found => (Opened.numbered (some found.1), found.2)
  match flags.skip text with
  | '?' :: '=' :: _ => none
  | '?' :: '!' :: _ => none
  | '?' :: '<' :: '=' :: _ => none
  | '?' :: '<' :: '!' :: _ => none
  | '?' :: 'P' :: '<' :: rest => named rest
  | '?' :: '<' :: rest => named rest
  | '?' :: rest => (readFlags flags [] false rest).map fun found =>
    (if found.2.1 then .plain found.1 else .flags found.1, found.2.2)
  | rest => some (.numbered none, rest)

/-! ### Items -/

/-- A part of a pattern that has been read. -/
structure Item where
  expr : Expr
  /-- How many parts of the pattern lie inside of each other there. -/
  depth : Nat
  /-- Whether it can be repeated; a place that sets flags cannot. -/
  repeatable : Bool

namespace Item

/-- A part without parts. -/
def single (expr : Expr) : Item := ⟨expr, 0, true⟩

/-- The place of a change of flags. -/
def mark : Item := ⟨.empty, 0, false⟩

/-- A part around one or several others, unless it is too deep. -/
def around (inner : List Item) (expr : Expr) : Option Item :=
  let depth := (inner.map (·.depth)).foldl max 0 + 1
  if depth ≤ greatestDepth then some ⟨expr, depth, true⟩ else none

/-- Items in sequence, which are given backwards. -/
def sequence (items : List Item) : Option Item :=
  match items with
  | [] => some (single .empty)
  | [item] => some item
  | items => around items (.ofItems (items.reverse.map (·.expr)))

/-- A choice between branches, which are given backwards. -/
def choice (branches : List Item) : Option Item :=
  match branches with
  | [branch] => some branch
  | branches => around branches (.ofBranches (branches.reverse.map (·.expr)))

/-- A group around an item. -/
def group (number : Option Nat) (item : Item) : Option Item :=
  around [item] (match number with
    | some number => .group number item.expr
    | none => item.expr)

/-- A repetition of an item. -/
def repetition (item : Item) (counts : Counts) (short : Bool) : Option Item :=
  if item.repeatable then around [item] (.ofRepeat item.expr counts.least counts.most short)
  else none

end Item

/-! ### Elements -/

/-- The dot; there is none without Unicode. -/
def dotSet? (flags : Flags) : Option CharSet :=
  if !flags.unicode then none
  else if flags.dotAll then some .all
  else if flags.anyLineEnd then some (CharSet.ofTable ["A D"]).complement
  else some (CharSet.single '\n').complement

/-- The anchor at the start. -/
def startLook (flags : Flags) : Look :=
  if !flags.multiLine then .textStart else if flags.anyLineEnd then .anyLineStart else .lineStart

/-- The anchor at the end. -/
def endLook (flags : Flags) : Look :=
  if !flags.multiLine then .textEnd else if flags.anyLineEnd then .anyLineEnd else .lineEnd

/-- An element as an expression.  Without Unicode, the number of a byte has to be one of ASCII. -/
def Atom.toExpr? (flags : Flags) : Atom → Option Expr
  | literal c byte =>
    if !flags.unicode && byte && 128 ≤ c.toNat then none else some (.ofSet (flags.foldChar c))
  | set chars => some (.ofSet chars)
  | look condition => some (.look condition)

/-- One element outside of brackets; the length of the text is fuel enough. -/
def readItem (flags : Flags) (fuel : Nat) : List Char → Option (Item × List Char)
  | [] => none
  | '[' :: rest => (readBracket flags fuel rest).map fun found =>
    (⟨.ofSet found.1.set, found.1.depth, true⟩, found.2)
  | '\\' :: rest => do
    let (atom, rest) ← readEscape flags rest
    (atom.toExpr? flags).map fun expr => (.single expr, rest)
  | '.' :: rest => (dotSet? flags).map fun set => (.single (.ofSet set), rest)
  | '^' :: rest => some (.single (.look (startLook flags)), rest)
  | '$' :: rest => some (.single (.look (endLook flags)), rest)
  | c :: rest => ((Atom.literal c false).toExpr? flags).map fun expr => (.single expr, rest)

/-! ### Patterns -/

/-- What has been read of a group. -/
structure Level where
  /-- The number of the group, if it has one. -/
  number : Option Nat
  flags : Flags
  /-- The items of the last branch, backwards. -/
  items : List Item
  /-- The branches before it, backwards. -/
  branches : List Item

/-- The item of all that has been read of a group. -/
def Level.item (level : Level) : Option Item := do
  let last ← Item.sequence level.items
  Item.choice (last :: level.branches)

/-- What has been read of a pattern. -/
structure Progress where
  level : Level
  /-- The groups around it that are still open. -/
  outer : List Level
  names : List (List Char)
  /-- How many groups have a number. -/
  groups : Nat

namespace Progress

/-- The start of a pattern. -/
def start (flags : Flags) : Progress := ⟨⟨none, flags, [], []⟩, [], [], 0⟩

/-- Adds an item. -/
def push (progress : Progress) (item : Item) : Progress :=
  { progress with level := { progress.level with items := item :: progress.level.items } }

/-- Starts another branch. -/
def branch (progress : Progress) : Option Progress :=
  (Item.sequence progress.level.items).map fun item =>
    let level := progress.level
    { progress with level := { level with items := [], branches := item :: level.branches } }

/-- Repeats the last item. -/
def repeatLast (progress : Progress) (counts : Counts) (short : Bool) : Option Progress :=
  match progress.level.items with
  | [] => none
  | item :: items => (item.repetition counts (short != progress.level.flags.short)).map fun item =>
    { progress with level := { progress.level with items := item :: items } }

/-- Opens a group. -/
def enter (progress : Progress) (number : Option Nat) (flags : Flags) : Progress :=
  { progress with level := ⟨number, flags, [], []⟩, outer := progress.level :: progress.outer }

/-- Follows an opening parenthesis.  No two groups have the same name. -/
def follow (progress : Progress) : Opened → Option Progress
  | .flags flags =>
    let marked := progress.push .mark
    some { marked with level := { marked.level with flags } }
  | .plain flags => some (progress.enter none flags)
  | .numbered name =>
    if name.any progress.names.contains then none
    else
      let number := progress.groups + 1
      let progress := progress.enter (some number) progress.level.flags
      some { progress with names := name.toList ++ progress.names, groups := number }

/-- Closes a group. -/
def close (progress : Progress) : Option Progress :=
  match progress.outer with
  | [] => none
  | level :: outer => do
    let inner ← progress.level.item
    let group ← inner.group progress.level.number
    some (push { progress with level, outer } group)

/-- Repeats the last item; a question mark makes the repetition short. -/
def repeatMarked (progress : Progress) (counts : Counts) (text : List Char) :
    Option (Progress × List Char) :=
  match text with
  | '?' :: rest => (progress.repeatLast counts true).map (·, rest)
  | _ => (progress.repeatLast counts false).map (·, text)

/-- Reads one part of a pattern, which starts with the first character of the text.  The length of
the text is fuel enough. -/
def step (progress : Progress) (fuel : Nat) (text : List Char) :
    Option (Progress × List Char) :=
  let flags := progress.level.flags
  match text with
  | '(' :: rest => do
    let (opened, rest) ← readOpening flags rest
    (progress.follow opened).map (·, rest)
  | ')' :: rest => progress.close.map (·, rest)
  | '|' :: rest => progress.branch.map (·, rest)
  | '?' :: rest => progress.repeatMarked ⟨0, some 1⟩ rest
  | '*' :: rest => progress.repeatMarked ⟨0, none⟩ rest
  | '+' :: rest => progress.repeatMarked ⟨1, none⟩ rest
  | '\x7b' :: rest => do
    let (counts, rest) ← readCounts flags rest
    progress.repeatMarked counts (flags.skip rest)
  | text => (readItem flags fuel text).map fun found => (progress.push found.1, found.2)

end Progress

/-- Reads the rest of a pattern.  Every step takes a character, so the fuel is never less than the
length of the text and one. -/
def readRest : Nat → Progress → List Char → Option Item
  | 0, _, _ => none
  | fuel + 1, progress, text => match progress.level.flags.skip text with
    | [] => if progress.outer.isEmpty then progress.level.item else none
    | text => match progress.step fuel text with
      | some (progress, rest) => readRest fuel progress rest
      | none => none

/-- Reads a whole pattern. -/
def readPattern (flags : Flags) (text : String) : Option Expr :=
  (readRest (text.length + 1) (.start flags) text.toList).map (·.expr)

end GraphValidation.Pattern
