/-
**How large the automata of a pattern are.**

A pattern is refused where one of its two automata, which read a text byte by byte forwards and
backwards, takes more than a fixed number of bytes.  The automata themselves are not built here: a
tally counts their states and what the states hold besides.

A set of characters beyond ASCII becomes several states, and states that agree are shared as far as
a small table remembers them.  The place of an entry in a table depends on the numbers of states, so
that the same set may take a little more in one place than in another.

* `Tally` — what has been counted.
* `measure` — counts the states of an expression.
* `fits` — whether both automata of an expression are small enough.
-/
import GraphValidation.Pattern.Encoding
import GraphValidation.Pattern.Expr
import Std.Data.HashMap

namespace GraphValidation.Pattern

open Text (CharSet)

/-! ### Counting -/

/-- The states of an automaton and the bytes that they hold besides their own size. -/
structure Tally where
  states : Nat
  extra : Nat

namespace Tally

/-- Nothing. -/
def zero : Tally := ⟨0, 0⟩

/-- The bytes of all states. -/
def bytes (tally : Tally) : Nat := 32 * tally.states + tally.extra

/-- The greatest number of bytes. -/
def limit : Nat := 10 * Nat.pow 2 20

/-- Adds some states. -/
def addStates (tally : Tally) (count : Nat) : Tally := { tally with states := tally.states + count }

/-- Adds a state that leads on for several ranges of bytes. -/
def addRanges (tally : Tally) (count : Nat) : Tally := ⟨tally.states + 1, tally.extra + 8 * count⟩

/-- Adds ways out of forks. -/
def addWays (tally : Tally) (count : Nat) : Tally := { tally with extra := tally.extra + 4 * count }

/-- Adds a way out of a state, which takes room if the state is a fork. -/
def leave (tally : Tally) (isFork : Bool) : Tally := if isFork then tally.addWays 1 else tally

end Tally

/-- What is counted for a part of an automaton, and whether the part ends in a fork. -/
structure Part where
  tally : Tally
  endsInFork : Bool

/-- Counts a part behind what has been counted, unless that is too large. -/
abbrev Measure := Tally → Option Part

/-- A part that ends in a state other than a fork. -/
def plain (tally : Tally) : Option Part :=
  if tally.bytes ≤ Tally.limit then some ⟨tally, false⟩ else none

/-- A part that ends in a fork. -/
def forked (tally : Tally) : Option Part :=
  if tally.bytes ≤ Tally.limit then some ⟨tally, true⟩ else none

/-! ### Tables of states -/

/-- The steps of a hash over numbers. -/
def hashStep (hash : UInt64) (n : Nat) : UInt64 := (hash ^^^ n.toUInt64) * 1099511628211

/-- The hash of no numbers. -/
def hashStart : UInt64 := 14695981039346656037

/-- A way from one state to another. -/
structure Way where
  bytes : ByteRange
  target : Nat
  deriving DecidableEq

/-- The hash of a way, after that of others. -/
def Way.hash (hash : UInt64) (way : Way) : UInt64 :=
  hashStep (hashStep (hashStep hash way.bytes.first.toNat) way.bytes.last.toNat) way.target

/-- States by the place of their ways in a table; each place holds the state that came last. -/
abbrev Table (α : Type) := Std.HashMap Nat (α × Nat)

/-- The state with some ways, if the table holds it at its place. -/
def Table.find? {α : Type} [DecidableEq α] (table : Table α) (place : Nat) (ways : α) :
    Option Nat :=
  match table.get? place with
  | some (other, state) => if other = ways then some state else none
  | none => none

/-! ### Sets, forwards -/

/-- A state whose last way may still get a longer path. -/
structure OpenState where
  /-- The ways that are finished, backwards. -/
  ways : List Way
  last : Option ByteRange

/-- The ways of an open state, whose last one leads to a state. -/
def OpenState.close (state : OpenState) (target : Nat) : List Way :=
  match state.last with
  | some bytes => ⟨bytes, target⟩ :: state.ways
  | none => state.ways

/-- What has been built of a set. -/
structure SetTally where
  tally : Tally
  table : Table (List Way)

namespace SetTally

/-- The number of places in a table. -/
def places : Nat := 10000

/-- The state with some ways, which are given backwards. -/
def state (set : SetTally) (ways : List Way) : SetTally × Nat :=
  let ways := ways.reverse
  let place := (ways.foldl Way.hash hashStart).toNat % places
  match set.table.find? place ways with
  | some state => (set, state)
  | none =>
    let state := set.tally.states
    (⟨set.tally.addRanges ways.length, set.table.insert place (ways, state)⟩, state)

/-- Finishes the states on a path; the answer holds the ways of the first of them. -/
def finish (set : SetTally) (target : Nat) : List OpenState → SetTally × List Way
  | [] => (set, [])
  | [state] => (set, state.close target)
  | state :: rest =>
    let (set, ways) := finish set target rest
    let (set, next) := set.state ways
    (set, state.close next)

/-- Adds a sequence.  The path of the one before it is kept as far as both agree. -/
def add (set : SetTally) (target : Nat) :
    List ByteRange → List OpenState → SetTally × List OpenState
  | [], path => (set, path)
  | bytes :: more, [] => (set, (bytes :: more).map fun bytes => ⟨[], some bytes⟩)
  | bytes :: more, state :: rest =>
    if state.last = some bytes then
      let (set, rest) := add set target more rest
      (set, state :: rest)
    else
      let (set, ways) := finish set target (state :: rest)
      (set, ⟨ways, some bytes⟩ :: more.map fun bytes => ⟨[], some bytes⟩)

end SetTally

/-- Counts a set that is read forwards. -/
def measureForwards (set : CharSet) : Measure := fun tally =>
  let target := tally.states
  let (built, path) := (sequences set).foldl
    (fun (built, path) bytes => built.add target bytes path)
    (SetTally.mk (tally.addStates 1) ∅, [⟨[], none⟩])
  let (built, ways) := built.finish target path
  plain (built.state ways).1.tally

/-! ### Sets, backwards -/

/-- The number of places in a table of single ways. -/
def wayPlaces : Nat := 1000

/-- Adds the states of a sequence; `state` is the one that its first byte leads to. -/
def addBackwards (tally : Tally) (table : Table Way) (state : Nat) :
    List ByteRange → Tally × Table Way
  | [] => (tally, table)
  | bytes :: more =>
    let way := Way.mk bytes state
    let place := (hashStep (hashStep (hashStep hashStart state) bytes.first.toNat)
      bytes.last.toNat).toNat % wayPlaces
    match table.find? place way with
    | some next => addBackwards tally table next more
    | none =>
      addBackwards (tally.addStates 1) (table.insert place (way, tally.states)) tally.states more

/-- Counts a set that is read backwards: a fork leads to the last byte of each sequence. -/
def measureBackwards (set : CharSet) : Measure := fun tally =>
  let target := tally.states + 1
  let (tally, _) := (sequences set).foldl
    (fun (tally, table) bytes => addBackwards (tally.addWays 1) table target bytes)
    (tally.addStates 2, (∅ : Table Way))
  plain tally

/-! ### Texts -/

/-- The bytes of a text. -/
def bytesOfText (chars : List Char) : List UInt8 := chars.flatMap String.utf8EncodeChar

/-- Divides texts at the empty ones among them. -/
def divideAtEmpty : List (List UInt8) → List (List (List UInt8))
  | [] => [[]]
  | [] :: rest => [] :: divideAtEmpty rest
  | text :: rest => match divideAtEmpty rest with
    | [] => [[text]]
    | chunk :: chunks => (text :: chunk) :: chunks

/-- Texts with the same first byte; their order among each other is kept. -/
def branchesOf (chunk : List (List UInt8)) : List (List (List UInt8)) :=
  (chunk.mergeSort fun a b => a.headD 0 ≤ b.headD 0).splitBy fun a b => a.headD 0 == b.headD 0

/-- Counts a tree of texts.  A text that ends at a node divides its branches, since what comes later
must not be preferred to it; several texts that end at a node without branches do so once.  Nodes
behind which nothing follows share one state, which is not counted here.  The length of the longest
text is fuel enough. -/
def measureTree : Nat → List (List UInt8) → Tally → Tally
  | 0, _, tally => tally
  | fuel + 1, texts, tally =>
    if texts.all List.isEmpty then tally
    else
      let ends := (texts.filter List.isEmpty).length
      let endsAtFront := (texts.takeWhile List.isEmpty).length
      let chunks := (divideAtEmpty texts).map branchesOf
      let tally := chunks.foldl (fun tally branches =>
        let tally := branches.foldl
          (fun tally branch => measureTree fuel (branch.map List.tail) tally) tally
        match branches.length with
        | 0 => tally
        | 1 => tally.addStates 1
        | count => tally.addRanges count) tally
      (tally.addStates 1).addWays
        ((chunks.filter fun branches => !branches.isEmpty).length + ends - (endsAtFront - 1))

/-- Counts a choice between texts. -/
def measureTexts (texts : List (List UInt8)) : Measure := fun tally =>
  let longest := (texts.map List.length).foldl max 0
  plain (measureTree (longest + 1) texts (tally.addStates 1))

/-! ### Expressions -/

/-- Counts one part behind another one. -/
def Measure.andThen (first second : Measure) : Measure := fun tally => do
  let part ← first tally
  second (part.tally.leave part.endsInFork)

/-- Counts a part some times more. -/
def Measure.repeatMore (body : Measure) : Nat → Part → Option Part
  | 0, part => some part
  | count + 1, part => match body (part.tally.leave part.endsInFork) with
    | some part => body.repeatMore count part
    | none => none

/-- Counts a part some times. -/
def Measure.times (body : Measure) : Nat → Measure
  | 0 => fun tally => plain (tally.addStates 1)
  | count + 1 => fun tally => do
    let part ← body tally
    body.repeatMore count part

/-- Counts a part some times more, of which each may be the last. -/
def Measure.optionalMore (body : Measure) : Nat → Part → Option Part
  | 0, part => some part
  | count + 1, part => match body ((part.tally.leave part.endsInFork).addStates 1) with
    | some part => body.optionalMore count ⟨part.tally.addWays 2, part.endsInFork⟩
    | none => none

/-- Counts a repetition; `neverEmpty` tells whether its body surely takes a character. -/
def Measure.repeated (body : Measure) (neverEmpty : Bool) :
    Nat → Option Nat → Measure
  | 0, some 1 => fun tally => do
    let part ← body (tally.addStates 1)
    plain (((part.tally.leave part.endsInFork).addStates 1).addWays 2)
  | 0, none => fun tally =>
    if neverEmpty then do
      let part ← body (tally.addStates 1)
      forked ((part.tally.leave part.endsInFork).addWays 1)
    else do
      let part ← body tally
      plain (((part.tally.leave part.endsInFork).addStates 3).addWays 4)
  | 1, none => fun tally => do
    let part ← body tally
    forked (((part.tally.leave part.endsInFork).addStates 1).addWays 1)
  | least + 2, none => fun tally => do
    let part ← body.times (least + 2) tally
    forked (((part.tally.leave part.endsInFork).addStates 1).addWays 1)
  | least, some most => fun tally => do
    let part ← body.times least tally
    if most ≤ least then some part
    else
      let part ← body.optionalMore (most - least) ⟨part.tally.addStates 1, part.endsInFork⟩
      plain (part.tally.leave part.endsInFork)

/-- The text of an expression that is nothing else. -/
def text? : Expr → Option (List Char)
  | .text chars => some chars
  | _ => none

mutual

/-- Counts an expression in one of the two automata. -/
def measure (backwards : Bool) : Expr → Measure
  | .empty => fun tally => plain (tally.addStates 1)
  | .text chars => fun tally => plain (tally.addStates (bytesOfText chars).length)
  | .set chars =>
    if chars.isAscii then fun tally => plain ((tally.addStates 1).addRanges chars.ranges.size)
    else if backwards then measureBackwards chars
    else measureForwards chars
  | .look _ => fun tally => plain (tally.addStates 1)
  | .group _ body =>
    if backwards then measure backwards body
    else fun tally => do
      let part ← measure backwards body (tally.addStates 1)
      plain ((part.tally.leave part.endsInFork).addStates 1)
  | .sequence items => measureItems backwards items
  | .choice branches => match branches.mapM text? with
    | some texts => measureTexts (texts.map fun text =>
      if backwards then (bytesOfText text).reverse else bytesOfText text)
    | none => measureBranches backwards true branches
  | .repeated body least most _ =>
    (measure backwards body).repeated (body.shortest?.any (0 < ·)) least most

/-- Counts expressions in sequence, in the order of their bytes. -/
def measureItems (backwards : Bool) : List Expr → Measure
  | [] => fun tally => plain (tally.addStates 1)
  | [item] => measure backwards item
  | item :: rest =>
    if backwards then (measureItems backwards rest).andThen (measure backwards item)
    else (measure backwards item).andThen (measureItems backwards rest)

/-- Counts the branches of a choice.  The fork and the end that all of them share are counted after
the second one. -/
def measureBranches (backwards : Bool) : Bool → List Expr → Measure
  | _, [] => plain
  | isFirst, branch :: rest => fun tally => do
    let part ← measure backwards branch tally
    let tally := (part.tally.leave part.endsInFork).addWays 1
    match isFirst, rest with
    | true, second :: rest => do
      let part ← measure backwards second tally
      let tally := ((part.tally.leave part.endsInFork).addWays 1).addStates 2
      measureBranches backwards false rest tally
    | _, rest => measureBranches backwards false rest tally

end

/-! ### Automata -/

/-- Counts a whole automaton.  One that may start anywhere begins with a loop over all bytes; the
one that reads forwards also marks the start and the end of a match. -/
def measureAutomaton (backwards : Bool) (expr : Expr) : Option Part := do
  let anchored := if backwards then expr.isAnchoredAtEnd else expr.isAnchoredAtStart
  let start := if anchored then Tally.zero.addStates 1
    else ((Tally.zero.addStates 2).addRanges 1).addWays 2
  let part ← measure backwards (if backwards then expr else .group 0 expr) start
  plain ((part.tally.leave part.endsInFork).addStates 1)

/-- Whether both automata of an expression are small enough. -/
def fits (expr : Expr) : Bool :=
  (measureAutomaton false expr).isSome && (measureAutomaton true expr).isSome

end GraphValidation.Pattern
