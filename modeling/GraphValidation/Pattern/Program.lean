/-
**Programs that search for a match.**

An expression is turned into a program of small instructions, built from its end towards its start:
the code of each part knows where to go on after it.  A search runs all ways through the program at
once, one character at a time, so its time is bounded by the product of the two lengths.

* `Program.ofExpr` — the program of an expression.
* `Program.accepts` — whether some part of a text matches.
-/
import GraphValidation.Pattern.Expr

namespace GraphValidation.Pattern

open Text (CharSet)

/-- An instruction, with the numbers of those that may follow it. -/
inductive Instr where
  | accept
  | char (c : Char) (next : Nat)
  | set (chars : CharSet) (next : Nat)
  | look (condition : Look) (next : Nat)
  | split (first second : Nat)

/-- Where an instruction leads to over a character. -/
def Instr.over? (c : Char) : Instr → Option Nat
  | char wanted next => if c = wanted then some next else none
  | set chars next => if chars.contains c then some next else none
  | _ => none

/-- A program and its first instruction. -/
structure Program where
  code : Array Instr
  start : Nat

namespace Program

/-- Adds an instruction; the answer is its number. -/
def add (code : Array Instr) (instr : Instr) : Array Instr × Nat :=
  let number := code.size
  (code.push instr, number)

/-- Code that is put in front of the instruction with a number. -/
abbrev Builder := Array Instr → Nat → Array Instr × Nat

/-- A number of copies, one after the other. -/
def copies (body : Builder) : Nat → Builder
  | 0, code, next => (code, next)
  | n + 1, code, next =>
    let (code, start) := body code next
    copies body n code start

/-- At most a number of copies; each may be the last one. -/
def optional (body : Builder) (after : Nat) : Nat → Builder
  | 0, code, next => (code, next)
  | n + 1, code, next =>
    let (code, start) := body code next
    let (code, start) := add code (.split start after)
    optional body after n code start

/-- Any number of copies: the copy leads back to the choice in front of it. -/
def star (body : Builder) : Builder := fun code next =>
  let (code, choice) := add code (.split next next)
  let (code, start) := body code choice
  (code.setIfInBounds choice (.split start next), choice)

/-- The code of a text, whose characters are given backwards. -/
def chars : List Char → Builder
  | [], code, next => (code, next)
  | c :: rest, code, next =>
    let (code, start) := add code (.char c next)
    chars rest code start

mutual

/-- The code of an expression. -/
def emit : Expr → Builder
  | .empty, code, next => (code, next)
  | .text text, code, next => chars text.reverse code next
  | .set chars, code, next => add code (.set chars next)
  | .look condition, code, next => add code (.look condition next)
  | .group _ body, code, next => emit body code next
  | .sequence items, code, next => emitItems items code next
  | .choice branches, code, next => emitBranches branches code next
  | .repeated body least most _, code, next =>
    let (code, start) := match most with
      | none => star (emit body) code next
      | some most => optional (emit body) next (most - least) code next
    copies (emit body) least code start

/-- The code of expressions in sequence. -/
def emitItems : List Expr → Builder
  | [], code, next => (code, next)
  | item :: rest, code, next =>
    let (code, start) := emitItems rest code next
    emit item code start

/-- The code of a choice; one without branches leads nowhere. -/
def emitBranches : List Expr → Builder
  | [], code, _ => add code (.set .empty 0)
  | branch :: rest, code, next =>
    let (code, first) := emit branch code next
    match rest with
    | [] => (code, first)
    | _ :: _ =>
      let (code, second) := emitBranches rest code next
      add code (.split first second)

end

/-- The program of an expression. -/
def ofExpr (expr : Expr) : Program :=
  let (code, start) := emit expr #[.accept] 0
  ⟨code, start⟩

/-! ### Searching -/

/-- The instructions that can be reached at one place. -/
structure Reached where
  /-- The last place at which each instruction was reached, counted from one. -/
  seen : Array Nat
  /-- Those that wait for a character. -/
  waiting : List Nat
  accepted : Bool

/-- Follows all ways from the instructions on a stack, up to those that wait for a character.  Each
instruction is entered once and puts at most two others on the stack. -/
def follow (code : Array Instr) (place : Nat) (before after : Option Char) :
    Nat → List Nat → Reached → Reached
  | 0, _, reached => reached
  | _, [], reached => reached
  | fuel + 1, i :: stack, reached =>
    if reached.seen[i]? = some place then follow code place before after fuel stack reached
    else
      let reached := { reached with seen := reached.seen.setIfInBounds i place }
      match code[i]? with
      | some .accept =>
        follow code place before after fuel stack { reached with accepted := true }
      | some (.look condition next) =>
        if condition.holds before after then
          follow code place before after fuel (next :: stack) reached
        else follow code place before after fuel stack reached
      | some (.split first second) =>
        follow code place before after fuel (first :: second :: stack) reached
      | _ =>
        follow code place before after fuel stack
          { reached with waiting := i :: reached.waiting }

/-- What is reached at one place from some instructions and from the start of a match. -/
def reach (program : Program) (place : Nat) (before after : Option Char) (seen : Array Nat)
    (active : List Nat) : Reached :=
  follow program.code place before after (2 * program.code.size + active.length + 1)
    (program.start :: active) ⟨seen, [], false⟩

/-- Whether a match ends here or further on. -/
def search (program : Program) (place : Nat) (before : Option Char) (seen : Array Nat)
    (active : List Nat) : List Char → Bool
  | [] => (program.reach place before none seen active).accepted
  | c :: rest =>
    let reached := program.reach place before (some c) seen active
    reached.accepted || search program (place + 1) (some c) reached.seen
      (reached.waiting.filterMap fun i => program.code[i]?.bind (·.over? c)) rest

/-- Whether some part of a text matches. -/
def accepts (program : Program) (text : String) : Bool :=
  program.search 1 none (Array.replicate program.code.size 0) [] text.toList

end Program

end GraphValidation.Pattern
