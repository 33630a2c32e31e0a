/-
**Pattern expressions.**

The meaning of a pattern.  Expressions are put together by functions that simplify them: a sequence
holds no other sequence and no two texts side by side, a choice between sets is a set, what the
branches of a choice start with is drawn out in front of it, and nothing that matches the empty text
alone is repeated more than once.

* `Expr` — the expressions.
* `Expr.ofSet`, `ofItems`, `ofBranches`, `ofRepeat` — the functions that put them together.
* `Expr.shortest?`, `Expr.isEmptyOnly` — what is known of the lengths of matches.
* `Expr.isAnchoredAtStart`, `Expr.isAnchoredAtEnd` — whether all matches touch an end of the text.
-/
import GraphValidation.Text.Folding
import GraphValidation.Text.Property

namespace GraphValidation.Pattern

open Text (CharSet)

/-- A condition on the place between two characters. -/
inductive Look where
  | textStart
  | textEnd
  | lineStart
  | lineEnd
  /-- The start of a line where a line may also end in a carriage return. -/
  | anyLineStart
  | anyLineEnd
  | boundary (ascii : Bool)
  | noBoundary (ascii : Bool)
  | wordStart (ascii : Bool)
  | wordEnd (ascii : Bool)
  | halfStart (ascii : Bool)
  | halfEnd (ascii : Bool)
  deriving DecidableEq, Repr

/-- Letters, digits and the underscore of ASCII. -/
def isAsciiWordChar (c : Char) : Bool := c.isAlphanum || c == '_'

/-- Whether a character there is counts as part of a word. -/
def isWordAt (ascii : Bool) : Option Char → Bool
  | none => false
  | some c => if ascii then isAsciiWordChar c else Text.Property.word.contains c

/-- Whether a condition holds between the characters before and after a place. -/
def Look.holds (before after : Option Char) : Look → Bool
  | textStart => before.isNone
  | textEnd => after.isNone
  | lineStart => before.isNone || before == some '\n'
  | lineEnd => after.isNone || after == some '\n'
  | anyLineStart =>
    before.isNone || before == some '\n' || (before == some '\r' && after != some '\n')
  | anyLineEnd =>
    after.isNone || after == some '\r' || (after == some '\n' && before != some '\r')
  | boundary ascii => isWordAt ascii before != isWordAt ascii after
  | noBoundary ascii => isWordAt ascii before == isWordAt ascii after
  | wordStart ascii => !isWordAt ascii before && isWordAt ascii after
  | wordEnd ascii => isWordAt ascii before && !isWordAt ascii after
  | halfStart ascii => !isWordAt ascii before
  | halfEnd ascii => !isWordAt ascii after

/-- A pattern expression. -/
inductive Expr where
  | empty
  | text (chars : List Char)
  | set (chars : CharSet)
  | look (condition : Look)
  /-- A group with a number of its own. -/
  | group (number : Nat) (body : Expr)
  | sequence (items : List Expr)
  | choice (branches : List Expr)
  /-- A repetition; a short one prefers to end early, which changes no answer. -/
  | repeated (body : Expr) (least : Nat) (most : Option Nat) (short : Bool)
  deriving Repr

namespace Expr

mutual

/-- Whether two expressions are written alike. -/
def same : Expr → Expr → Bool
  | empty, empty => true
  | text a, text b => a == b
  | set a, set b => a == b
  | look a, look b => a == b
  | group m a, group n b => m == n && same a b
  | sequence as, sequence bs => sameAll as bs
  | choice as, choice bs => sameAll as bs
  | repeated a least most short, repeated b least' most' short' =>
    least == least' && most == most' && short == short' && same a b
  | _, _ => false

/-- Whether two lists of expressions are written alike. -/
def sameAll : List Expr → List Expr → Bool
  | [], [] => true
  | a :: as, b :: bs => same a b && sameAll as bs
  | _, _ => false

end

mutual

/-- The number of expressions in an expression. -/
def size : Expr → Nat
  | group _ body => body.size + 1
  | sequence items => sizeAll items + 1
  | choice branches => sizeAll branches + 1
  | repeated body _ _ _ => body.size + 1
  | _ => 1

/-- The number of expressions in some expressions. -/
def sizeAll : List Expr → Nat
  | [] => 0
  | item :: rest => item.size + sizeAll rest

end

/-! ### Lengths and anchors -/

/-- The sum of two lengths that may be unknown. -/
def addLengths (a b : Option Nat) : Option Nat := a.bind fun m => b.map (m + ·)

/-- The smaller of two lengths, unless one is unknown. -/
def minLengths (a b : Option Nat) : Option Nat := a.bind fun m => b.map (min m ·)

mutual

/-- A number of characters that no match goes below, unless some part matches nothing at all. -/
def shortest? : Expr → Option Nat
  | empty => some 0
  | text chars => some chars.length
  | set chars => if chars.isEmpty then none else some 1
  | look _ => some 0
  | group _ body => shortest? body
  | sequence items => shortestSum? items
  | choice branches => shortestBranch? branches
  | repeated body least _ _ => (shortest? body).map (· * least)

/-- The sum of these numbers. -/
def shortestSum? : List Expr → Option Nat
  | [] => some 0
  | item :: rest => addLengths (shortest? item) (shortestSum? rest)

/-- The least of these numbers. -/
def shortestBranch? : List Expr → Option Nat
  | [] => none
  | [branch] => shortest? branch
  | branch :: rest => minLengths (shortest? branch) (shortestBranch? rest)

end

mutual

/-- Whether an expression surely matches the empty text alone. -/
def isEmptyOnly : Expr → Bool
  | empty => true
  | text chars => chars.isEmpty
  | set _ => false
  | look _ => true
  | group _ body => isEmptyOnly body
  | sequence items => areEmptyOnly items
  | choice branches => areEmptyOnly branches
  | repeated body _ most _ => most.isSome && isEmptyOnly body

/-- Whether all of some expressions do. -/
def areEmptyOnly : List Expr → Bool
  | [] => true
  | item :: rest => isEmptyOnly item && areEmptyOnly rest

end

mutual

/-- Whether every match begins with a condition. -/
def beginsWith (condition : Look) : Expr → Bool
  | look other => other == condition
  | group _ body => beginsWith condition body
  | sequence items => sequenceBeginsWith condition items
  | choice branches => allBeginWith condition branches
  | repeated body least _ _ => 0 < least && beginsWith condition body
  | _ => false

/-- Whether one of the items up to the first that takes a character begins with a condition. -/
def sequenceBeginsWith (condition : Look) : List Expr → Bool
  | [] => false
  | item :: rest =>
    beginsWith condition item || (isEmptyOnly item && sequenceBeginsWith condition rest)

/-- Whether all branches begin with a condition. -/
def allBeginWith (condition : Look) : List Expr → Bool
  | [] => true
  | branch :: rest => beginsWith condition branch && allBeginWith condition rest

end

mutual

/-- Whether every match ends with a condition. -/
def endsWith (condition : Look) : Expr → Bool
  | look other => other == condition
  | group _ body => endsWith condition body
  | sequence items => sequenceEndsWith condition items
  | choice branches => allEndWith condition branches
  | repeated body least _ _ => 0 < least && endsWith condition body
  | _ => false

/-- Whether one of the items behind the last that takes a character, or that one, ends with a
condition. -/
def sequenceEndsWith (condition : Look) : List Expr → Bool
  | [] => false
  | item :: rest =>
    sequenceEndsWith condition rest || (areEmptyOnly rest && endsWith condition item)

/-- Whether all branches end with a condition. -/
def allEndWith (condition : Look) : List Expr → Bool
  | [] => true
  | branch :: rest => endsWith condition branch && allEndWith condition rest

end

/-- Whether every match starts where the text starts. -/
def isAnchoredAtStart (expr : Expr) : Bool := expr.beginsWith .textStart

/-- Whether every match ends where the text ends. -/
def isAnchoredAtEnd (expr : Expr) : Bool := expr.endsWith .textEnd

/-! ### Putting expressions together -/

/-- The expression of a text. -/
def ofText (chars : List Char) : Expr := if chars.isEmpty then empty else text chars

/-- The expression of a set; a set of one character is a text. -/
def ofSet (chars : CharSet) : Expr :=
  match chars.only? with
  | some c => text [c]
  | none => set chars

/-- The items of a sequence, of which an empty expression has none. -/
def items : Expr → List Expr
  | empty => []
  | sequence items => items
  | expr => [expr]

/-- Joins the texts that stand side by side. -/
def joinTexts : List Expr → List Expr
  | [] => []
  | text a :: rest => match joinTexts rest with
    | text b :: rest => text (a ++ b) :: rest
    | rest => text a :: rest
  | item :: rest => item :: joinTexts rest

/-- A sequence of expressions. -/
def ofItems (exprs : List Expr) : Expr :=
  match joinTexts (exprs.flatMap items) with
  | [] => empty
  | [item] => item
  | items => sequence items

/-- The branches of a choice. -/
def branches : Expr → List Expr
  | choice branches => branches
  | expr => [expr]

/-- The character of a text that has no other. -/
def char? : Expr → Option Char
  | text [c] => some c
  | _ => none

/-- The set of an expression that is nothing else. -/
def set? : Expr → Option CharSet
  | set chars => some chars
  | _ => none

/-- The set that some branches make: all of them are single characters, or all are sets. -/
def setOfBranches? (branches : List Expr) : Option CharSet :=
  match branches.mapM char? with
  | some chars => some (.ofPoints (chars.map Char.toNat))
  | none => (branches.mapM set?).map CharSet.unionAll

/-- How many items two lists have in common at their fronts. -/
def commonLength : List Expr → List Expr → Nat
  | a :: as, b :: bs => if same a b then commonLength as bs + 1 else 0
  | _, _ => 0

/-- The items of an expression that is a sequence. -/
def sequence? : Expr → Option (List Expr)
  | sequence items => some items
  | _ => none

/-- How many items all of some sequences start with in common. -/
def commonStart : List (List Expr) → Nat
  | [] => 0
  | first :: rest =>
    rest.foldl (fun length items => min length (commonLength first items)) first.length

/-- A choice between expressions.  Each step draws something out of all branches, so that their size
is fuel enough. -/
def choose : Nat → List Expr → Expr
  | 0, exprs => choice (exprs.flatMap branches)
  | fuel + 1, exprs => match exprs.flatMap branches with
    | [branch] => branch
    | branches => match setOfBranches? branches with
      | some chars => ofSet chars
      | none => match branches.mapM sequence? with
        | none => choice branches
        | some sequences =>
          let length := commonStart sequences
          if length = 0 then choice branches
          else
            let rest := choose fuel (sequences.map fun items => ofItems (items.drop length))
            ofItems ((sequences.head?.getD []).take length ++ [rest])

/-- A choice between expressions. -/
def ofBranches (exprs : List Expr) : Expr := choose (sizeAll exprs) exprs

/-- A repetition; what matches the empty text alone need not be repeated. -/
def ofRepeat (body : Expr) (least : Nat) (most : Option Nat) (short : Bool) : Expr :=
  let least := if body.isEmptyOnly then min least 1 else least
  let most := if body.isEmptyOnly then some (min (most.getD 1) 1) else most
  if least = 0 ∧ most = some 0 then empty
  else if least = 1 ∧ most = some 1 then body
  else repeated body least most short

end Expr

end GraphValidation.Pattern
