/-
**No constraint is evaluated twice.**

A call may come by a bean many times: in each pass, in each group of a redefined default group, and
on each path that leads to it.  But a constraint is claimed before it is evaluated, claims are never
given back, and they are asked for on every way in.  The constraints that a composite is made of are
not claimed; they are evaluated one after the other, with all that is below them, when the composite
is.

* `Economical` — what a journal tells of evaluations: on a bean none comes twice, and that of a
  composing constraint is the only one since its composite was evaluated.
* `Composing` — the order in which the constraints below a composite are evaluated.
* `Tallied`, `Awaits` — what the claims of a call tell about its journal, and what is known where a
  constraint has just been claimed.
* `constraints_evaluated_once` — **the journal of every call is economical**.
-/
import GraphValidation.Proofs.Companions
import GraphValidation.Proofs.Exploration

namespace GraphValidation

/-! ### Economical journals -/

namespace NodePlace

/-- The place of a constraint that the one at a place is composed of. -/
def below (place : NodePlace) (index : Nat) : NodePlace :=
  { place with positions := place.positions ++ [index] }

/-- The place of the constraint that is no part of another one, at or above a place. -/
def top (place : NodePlace) : NodePlace := { place with positions := place.positions.take 1 }

theorem below_inj {place other : NodePlace} {index position : Nat}
    (same : place.below index = other.below position) : place = other ∧ index = position := by
  obtain ⟨type, property, positions⟩ := place
  obtain ⟨type', property', positions'⟩ := other
  simp only [below, mk.injEq] at same
  obtain ⟨rfl, rfl, same⟩ := same
  obtain ⟨rfl, last⟩ := List.append_inj' same rfl
  exact ⟨rfl, List.head_eq_of_cons_eq last⟩

theorem top_of_outer {place : NodePlace} {position : Nat} (outer : place.positions = [position])
    (more : List Nat) : top { place with positions := place.positions ++ more } = place := by
  obtain ⟨type, property, positions⟩ := place
  cases outer
  rfl

end NodePlace

theorem Event.evaluates_iff {id : String} {place : NodePlace} {event : Event} :
    event.evaluates id place = true
      ↔ ∃ bean path group, event = .evaluated bean path group place
        ∧ bean.bean?.map (·.id) = some id := by
  cases event with
  | evaluated bean path group other =>
    simp only [evaluates, Bool.and_eq_true, beq_iff_eq]
    constructor
    · rintro ⟨known, rfl⟩
      exact ⟨bean, path, group, rfl, known⟩
    · rintro ⟨_, _, _, same, known⟩
      cases same
      exact ⟨known, rfl⟩
  | asked _ _ => simp [evaluates]
  | read _ _ _ => simp [evaluates]
  | entered _ _ _ => simp [evaluates]

/-- What a journal tells of evaluations, from the first event to the last. -/
structure Economical (journal : List Event) : Prop where
  /-- On a bean with an identity no constraint is evaluated twice. -/
  once : ∀ id place, journal.countP (Event.evaluates id place) ≤ 1
  /-- A composing constraint is evaluated when its composite is, and then once at most: what comes
  before is an evaluation of the composite on the same bean, at the same path and in the same group,
  and nothing in between but evaluations of other constraints below the composite. -/
  composed : ∀ before bean path group composite index after,
    journal = before ++ .evaluated bean path group (composite.below index) :: after →
    composite.positions ≠ [] →
      ∃ earlier during, before = earlier ++ .evaluated bean path group composite :: during
        ∧ ∀ event ∈ during, ∃ other, event = .evaluated bean path group other
          ∧ composite.Above other ∧ other ≠ composite.below index

theorem append_eq_append_cons {α : Type} {first second before after : List α} {a : α}
    (same : first ++ second = before ++ a :: after) :
    (∃ more, first = before ++ a :: more) ∨ ∃ more, before = first ++ more
      ∧ second = more ++ a :: after := by
  rcases List.append_eq_append_iff.mp same with ⟨more, rfl, rest⟩ | ⟨more, rfl, rest⟩
  · exact .inr ⟨more, rfl, rest⟩
  · cases more with
    | nil => exact .inr ⟨[], by simp, rest.symm⟩
    | cons head more =>
      cases rest
      exact .inl ⟨more, rfl⟩

namespace Economical

theorem nil : Economical [] where
  once _ _ := Nat.zero_le 1
  composed := by
    intro before _ _ _ _ _ _ same
    exact absurd same (by simp)

/-- What does not evaluate is economical. -/
theorem of_quiet {event : Event} (quiet : event.isEvaluation = false) : Economical [event] where
  once id place := List.countP_le_length
  composed := by
    intro before _ _ _ _ _ _ same
    cases before with
    | nil =>
      cases same
      cases quiet
    | cons _ _ => simp at same

/-- Journals that evaluate different constraints, one after the other. -/
theorem append {journal more : List Event} (first : Economical journal) (second : Economical more)
    (apart : ∀ id place, ∀ event ∈ journal, event.evaluates id place = true →
      ∀ other ∈ more, other.evaluates id place = false) : Economical (journal ++ more) where
  once id place := by
    rw [List.countP_append]
    cases found : journal.any (Event.evaluates id place) with
    | true =>
      obtain ⟨event, member, evaluates⟩ := List.any_eq_true.mp found
      have notAgain : more.countP (Event.evaluates id place) = 0 :=
        List.countP_eq_zero.mpr fun other inMore => by
          rw [apart id place event member evaluates other inMore]
          exact Bool.false_ne_true
      rw [notAgain]
      exact first.once id place
    | false =>
      have notBefore : journal.countP (Event.evaluates id place) = 0 :=
        List.countP_eq_zero.mpr (List.any_eq_false.mp found)
      rw [notBefore, Nat.zero_add]
      exact second.once id place
  composed := by
    intro before bean path group composite index after same inner
    rcases append_eq_append_cons same with ⟨rest, here⟩ | ⟨between, rfl, later⟩
    · exact first.composed before bean path group composite index rest here inner
    · obtain ⟨earlier, during, rfl, only⟩ :=
        second.composed between bean path group composite index after later inner
      exact ⟨journal ++ earlier, during, (List.append_assoc ..).symm, only⟩

end Economical

/-! ### Composing constraints -/

/-- Places of the constraints that the one at a place is composed of, from a position on.  Each is
followed by the places below it; the list may end early. -/
inductive Composing : NodePlace → Nat → List NodePlace → Prop
  | done (place : NodePlace) (index : Nat) : Composing place index []
  | next (place : NodePlace) (index : Nat) (inner rest : List NodePlace) :
    Composing (place.below index) 0 inner → Composing place (index + 1) rest →
      Composing place index (place.below index :: (inner ++ rest))

section Judgements

variable {environment : Environment} {site : Site} {value : Value}

theorem Findings.places_andThen (first second : Findings) :
    (first.andThen second).places = first.places
      ∨ (first.andThen second).places = first.places ++ second.places := by
  unfold andThen
  cases first.failure with
  | some error => exact .inl rfl
  | none => exact .inr rfl

theorem Findings.places_andThen_of_nil {first second : Findings} (empty : second.places = []) :
    (first.andThen second).places = first.places := by
  have shown := places_andThen first second
  rwa [empty, List.append_nil, or_self] at shown

/-- The evaluation of a constraint starts at its place and goes on with what it is composed of. -/
theorem judge_places_eq (place : NodePlace) (content : NodeContent)
    (composing : List ConstraintNode) :
    (judge environment site place value (.mk content composing)).places
      = place :: (judgeAll environment site place 0 value composing).places := by
  have own : (judgeOwn environment site value (.mk content composing)).places = [] :=
    judgeOwn_places (.mk content composing)
  unfold judge
  refine congrArg (place :: ·) ?_
  split
  · refine Findings.places_andThen_of_nil ?_
    split
    · exact own
    · rfl
  · exact Findings.places_andThen_of_nil own

mutual

/-- Below a constraint those are evaluated that it is composed of. -/
theorem judge_composing (place : NodePlace) (node : ConstraintNode) :
    ∃ inner, (judge environment site place value node).places = place :: inner
      ∧ Composing place 0 inner := by
  cases node with
  | mk content composing =>
    exact ⟨_, judge_places_eq place content composing, judgeAll_composing place 0 composing⟩

theorem judgeAll_composing (place : NodePlace) (index : Nat) (nodes : List ConstraintNode) :
    Composing place index (judgeAll environment site place index value nodes).places := by
  cases nodes with
  | nil => exact .done place index
  | cons node rest =>
    obtain ⟨inner, places, composing⟩ := judge_composing (place.below index) node
    have later := judgeAll_composing place (index + 1) rest
    unfold judgeAll
    rcases Findings.places_andThen (judge environment site (place.below index) value node)
      (judgeAll environment site place (index + 1) value rest) with ended | went
    · have alone := Composing.next place index inner [] composing (.done place (index + 1))
      rw [List.append_nil, ← places, ← ended] at alone
      exact alone
    · have both := Composing.next place index inner _ composing later
      rw [← List.cons_append, ← places, ← went] at both
      exact both

end

end Judgements

namespace Composing

variable {place : NodePlace} {index : Nat} {places : List NodePlace}

/-- What is listed lies below the place, at the position or after it. -/
theorem mem (composing : Composing place index places) :
    ∀ other ∈ places, ∃ position more, index ≤ position
      ∧ other = { place with positions := place.positions ++ position :: more } := by
  induction composing with
  | done place index => exact fun _ member => absurd member List.not_mem_nil
  | next place index inner rest _ _ ihInner ihRest =>
    intro other member
    rcases List.mem_cons.mp member with rfl | member
    · exact ⟨index, [], Nat.le_refl index, rfl⟩
    · rcases List.mem_append.mp member with inside | after
      · obtain ⟨position, more, -, rfl⟩ := ihInner other inside
        exact ⟨index, position :: more, Nat.le_refl index, by simp [NodePlace.below]⟩
      · obtain ⟨position, more, later, rfl⟩ := ihRest other after
        exact ⟨position, more, Nat.le_of_succ_le later, rfl⟩

theorem above (composing : Composing place index places) :
    ∀ other ∈ places, place.Above other := by
  intro other member
  obtain ⟨position, more, -, rfl⟩ := composing.mem other member
  exact ⟨rfl, rfl, position :: more, List.cons_ne_nil _ _, rfl⟩

/-- No place is listed twice. -/
theorem nodup (composing : Composing place index places) : places.Nodup := by
  -- What is below one position and what is below a later one differ at that position.
  induction composing with
  | done place index => exact List.nodup_nil
  | next place index inner rest inside after ihInner ihRest =>
    have apart : ∀ other ∈ rest, ∀ more,
        other ≠ { place with positions := place.positions ++ index :: more } := by
      intro other member more same
      obtain ⟨position, _, later, rfl⟩ := after.mem other member
      have positions := List.append_cancel_left (congrArg NodePlace.positions same)
      cases positions
      exact Nat.not_succ_le_self _ later
    refine List.nodup_cons.mpr ⟨fun again => ?_, List.nodup_append.mpr ⟨ihInner, ihRest, ?_⟩⟩
    · rcases List.mem_append.mp again with member | member
      · exact NodePlace.not_above_self _ (inside.above _ member)
      · exact apart _ member [] rfl
    · rintro other member _ inRest rfl
      obtain ⟨position, more, -, same⟩ := inside.mem other member
      exact apart other inRest (position :: more) (by rw [same]; simp [NodePlace.below])

/-- **What is listed follows what it composes**, with nothing in between but what is below that,
unless it composes the constraint at the place. -/
theorem follows (composing : Composing place index places) :
    ∀ before composite position after, places = before ++ composite.below position :: after →
      composite = place ∨ ∃ earlier during, before = earlier ++ composite :: during
        ∧ ∀ other ∈ during, composite.Above other := by
  induction composing with
  | done place index => exact fun before _ _ _ same => absurd same (by simp)
  | next place index inner rest inside after ihInner ihRest =>
    intro before composite position later same
    cases before with
    | nil => exact .inl (NodePlace.below_inj (List.head_eq_of_cons_eq same)).1.symm
    | cons head before =>
      obtain ⟨rfl, tails⟩ := List.cons.inj same
      rcases append_eq_append_cons tails with ⟨more, here⟩ | ⟨between, rfl, here⟩
      · right
        rcases ihInner before composite position more here with rfl | ⟨earlier, during, rfl, only⟩
        · refine ⟨[], before, rfl, fun other member => inside.above other ?_⟩
          rw [here]
          exact List.mem_append_left _ member
        · exact ⟨place.below index :: earlier, during, rfl, only⟩
      · refine (ihRest between composite position later here).imp_right ?_
        rintro ⟨earlier, during, rfl, only⟩
        exact ⟨place.below index :: (inner ++ earlier), during, by simp, only⟩

end Composing

/-- **What one evaluation adds to a journal is economical.** -/
theorem Economical.of_composing {place : NodePlace} {index : Nat} {places : List NodePlace}
    (composing : Composing place index places) (outermost : place.positions = []) (bean : Value)
    (path : Path) (group : TypeKey) :
    Economical (places.map (Event.evaluated bean path group)) where
  once id other := by
    have same : ∀ each ∈ places,
        Event.evaluates id other (.evaluated bean path group each) = true →
          (each == other) = true := by
      intro each _ evaluates
      obtain ⟨_, _, _, shown, -⟩ := Event.evaluates_iff.mp evaluates
      cases shown
      exact beq_self_eq_true other
    rw [List.countP_map]
    calc places.countP (Event.evaluates id other ∘ Event.evaluated bean path group)
        ≤ places.count other := List.countP_mono_left same
      _ ≤ 1 := List.nodup_iff_count_le_one.mp composing.nodup other
  composed := by
    intro before _ _ _ composite position after same inner
    obtain ⟨first, rest, rfl, rfl, here⟩ := List.map_eq_append_iff.mp same
    obtain ⟨head, later, rfl, isHead, rfl⟩ := List.map_eq_cons_iff.mp here
    cases isHead
    rcases composing.follows first composite position later rfl with
      rfl | ⟨earlier, during, rfl, only⟩
    · exact absurd outermost inner
    · let evaluated := Event.evaluated bean path group
      refine ⟨earlier.map evaluated, during.map evaluated, List.map_append, fun event member => ?_⟩
      obtain ⟨other, inside, rfl⟩ := List.mem_map.mp member
      have apart := (List.nodup_append.mp composing.nodup).2.2 other
        (List.mem_append_right _ (List.mem_cons_of_mem _ inside)) _ List.mem_cons_self
      exact ⟨other, rfl, only other inside, apart⟩

/-! ### What claims tell -/

/-- What is evaluated on beans with an identity has been claimed, and nothing was twice. -/
structure Notes.Tallied (notes : Notes) : Prop where
  economical : Economical notes.journal.reverse
  claimed : ∀ id place, ∀ event ∈ notes.journal, event.evaluates id place = true →
    (id, place.top) ∈ notes.processed

/-- A constraint has just been claimed on the bean, if that has an identity: neither the constraint
nor any below it has been evaluated there. -/
structure Notes.Awaits (place : NodePlace) (notes : Notes) : Prop where
  tallied : notes.Tallied
  claimed : ∀ id, notes.bean.bean?.map (·.id) = some id → (id, place) ∈ notes.processed
  fresh : ∀ id other, notes.bean.bean?.map (·.id) = some id → ∀ event ∈ notes.journal,
    event.evaluates id other = true → other.top ≠ place

theorem Event.evaluates_of_quiet {event : Event} (quiet : event.isEvaluation = false) (id : String)
    (place : NodePlace) : event.evaluates id place = false := by
  cases event with
  | evaluated _ _ _ _ => cases quiet
  | asked _ _ => rfl
  | read _ _ _ => rfl
  | entered _ _ _ => rfl

namespace Notes

variable {notes : Notes} {place : NodePlace}

theorem Tallied.record (tallied : notes.Tallied) (event : Event)
    (quiet : event.isEvaluation = false) : (notes.noting [event]).Tallied where
  economical := by
    have appended := tallied.economical.append (.of_quiet quiet)
      fun id place _ _ _ other member => by
        rw [List.mem_singleton.mp member]
        exact Event.evaluates_of_quiet quiet id place
    simpa [noting] using appended
  claimed id place other member evaluates := by
    rcases List.mem_cons.mp member with rfl | member
    · rw [Event.evaluates_of_quiet quiet] at evaluates
      cases evaluates
    · exact tallied.claimed id place other member evaluates

theorem Awaits.record (awaits : notes.Awaits place) (event : Event)
    (quiet : event.isEvaluation = false) : (notes.noting [event]).Awaits place where
  tallied := awaits.tallied.record event quiet
  claimed := awaits.claimed
  fresh id other known each member evaluates := by
    rcases List.mem_cons.mp member with rfl | member
    · rw [Event.evaluates_of_quiet quiet] at evaluates
      cases evaluates
    · exact awaits.fresh id other known each member evaluates

/-- What is remembered tells nothing of evaluations. -/
theorem Tallied.remembering (tallied : notes.Tallied) (lastRead : Option (Access × Value)) :
    Tallied { notes with lastRead } :=
  ⟨tallied.economical, tallied.claimed⟩

theorem Awaits.remembering (awaits : notes.Awaits place) (lastRead : Option (Access × Value)) :
    Awaits place { notes with lastRead } :=
  ⟨awaits.tallied.remembering lastRead, awaits.claimed, awaits.fresh⟩

/-- **A claim that is new awaits its evaluation.** -/
theorem Tallied.awaits (tallied : notes.Tallied) {ref : BeanRef}
    (isBean : notes.bean.bean? = some ref) (new : (ref.id, place) ∉ notes.processed) :
    Awaits place { notes with processed := (ref.id, place) :: notes.processed } where
  tallied := ⟨tallied.economical, fun id other event member evaluates =>
    List.mem_cons_of_mem _ (tallied.claimed id other event member evaluates)⟩
  claimed id known := by
    rw [show notes.bean.bean? = _ from isBean] at known
    cases known
    exact List.mem_cons_self
  fresh id other known event member evaluates := by
    rw [show notes.bean.bean? = _ from isBean] at known
    cases known
    rintro rfl
    exact new (tallied.claimed ref.id other event member evaluates)

/-- Where there is no identity, nothing is claimed. -/
theorem Tallied.awaits_of_none (tallied : notes.Tallied) (noBean : notes.bean.bean? = none) :
    notes.Awaits place where
  tallied := tallied
  claimed id known := by simp [noBean] at known
  fresh id _ known := by simp [noBean] at known

/-- **What has been claimed may be evaluated once.** -/
theorem Awaits.evaluated (awaits : notes.Awaits place) (path : Path) (group : TypeKey)
    {places : List NodePlace} (tops : ∀ other ∈ places, other.top = place)
    (economical : Economical (places.map (Event.evaluated notes.bean path group))) :
    (notes.noting (places.map (Event.evaluated notes.bean path group)).reverse).Tallied where
  economical := by
    have appended := awaits.tallied.economical.append economical
      fun id other event inJournal evaluates each member => by
        rw [← Bool.not_eq_true]
        intro again
        obtain ⟨_, inside, rfl⟩ := List.mem_map.mp member
        obtain ⟨_, _, _, shown, known⟩ := Event.evaluates_iff.mp again
        cases shown
        exact awaits.fresh id other known event (List.mem_reverse.mp inJournal) evaluates
          (tops other inside)
    simpa [noting] using appended
  claimed id other event member evaluates := by
    rcases List.mem_append.mp member with now | before
    · obtain ⟨_, inside, rfl⟩ := List.mem_map.mp (List.mem_reverse.mp now)
      obtain ⟨_, _, _, shown, known⟩ := Event.evaluates_iff.mp evaluates
      cases shown
      rw [tops other inside]
      exact awaits.claimed id known
    · exact awaits.tallied.claimed id other event before evaluates

end Notes

/-! ### Validating a constraint -/

section Examining

variable {environment : Environment} {place : NodePlace}

/-- Fetching a value writes down what was asked and read, and remembers a value. -/
theorem fetch_keeps {holds : Notes → Prop}
    (record : ∀ {notes}, holds notes → ∀ event, Event.isEvaluation event = false →
      holds (notes.noting [event]))
    (remembering : ∀ {notes}, holds notes → ∀ lastRead, holds { notes with lastRead })
    (access : Access) :
    Together (Notes.Keeps holds) (Run.fetch environment access) (Run.fetch environment access) := by
  have reads : ∀ access, Together (Notes.Keeps holds) (Run.propertyValue environment access)
      (Run.propertyValue environment access) := by
    refine fun access => together_keeps_iff.mpr fun context now => ?_
    have reading := propertyValue_getting environment access context
    have noted := record now (.read context.bean access context.path) rfl
    unfold Run.after
    generalize Run.propertyValue environment access context = result at reading
    cases reading with
    | given _ _ => exact now
    | remembered _ _ _ => exact now
    | read value _ _ => exact remembering noted (some (access, value))
    | failed _ _ _ => exact noted
  exact Together.fetchReading (Records.of_kept record) environment reads access

/-- What is evaluated for a constraint was awaited with it. -/
theorem tallied_after_evaluate {position : Nat} (outer : place.positions = [position])
    (value : Value) (node : ConstraintNode) (context : Context)
    (awaits : context.notes.Awaits place) :
    ((Engine.evaluate environment place value node).after context).notes.Tallied := by
  rw [Run.after_evaluate]
  let root : NodePlace := { place with positions := [] }
  have isFirst : root.below position = place := by simp [root, NodePlace.below, ← outer]
  obtain ⟨inner, places, below⟩ : ∃ inner,
      (judge environment context.site place value node).places = place :: inner
        ∧ Composing place 0 inner := judge_composing place node
  have composing : Composing root position (place :: inner) := by
    have next := Composing.next root position inner [] (isFirst ▸ below) (.done root (position + 1))
    rwa [isFirst, List.append_nil] at next
  have tops : ∀ other ∈ place :: inner, other.top = place := by
    intro other member
    rcases List.mem_cons.mp member with rfl | member
    · simpa using NodePlace.top_of_outer outer []
    · obtain ⟨_, _, -, rfl⟩ := below.mem other member
      exact NodePlace.top_of_outer outer _
  have evaluated := awaits.evaluated context.path context.group tops
    (.of_composing composing rfl context.bean context.path context.group)
  rw [← places] at evaluated
  exact evaluated

theorem tallied_after_withFetched {position : Nat} (outer : place.positions = [position])
    (access : Access) (node : ConstraintNode) (context : Context)
    (awaits : context.notes.Awaits place) :
    ((Run.withFetched (Run.fetch environment) access fun value =>
      Engine.evaluate environment place value node).after context).notes.Tallied := by
  have keeps : Together (Notes.Keeps (Notes.Awaits place)) (Run.fetch environment access) _ :=
    fetch_keeps Notes.Awaits.record Notes.Awaits.remembering access
  have fetching := together_keeps_iff.mp keeps context awaits
  unfold Run.withFetched
  cases fetched : Run.fetch environment access context with
  | error error later =>
    rw [Run.after_of_error fetched] at fetching
    rw [Run.after_of_error (Run.bind_of_error fetched)]
    exact fetching.tallied
  | ok found later =>
    rw [Run.after_of_ok fetched] at fetching
    rw [Run.after_bind_of_ok fetched]
    cases found with
    | none => exact fetching.tallied
    | some value => exact tallied_after_evaluate outer value node later fetching

/-- A step that is taken only where the claim is new. -/
theorem tallied_after_claim {step : Run Unit}
    (next : ∀ later : Context, later.notes.Awaits place → (step.after later).notes.Tallied)
    (context : Context) (tallied : context.notes.Tallied) :
    ((do if !(← Run.markProcessed place) then pure () else step : Run Unit).after
      context).notes.Tallied := by
  have claiming := Run.markProcessed_apply place context
  cases isBean : context.bean.bean? with
  | none =>
    rw [isBean] at claiming
    rw [Run.after_bind_of_ok claiming]
    exact next context (tallied.awaits_of_none isBean)
  | some ref =>
    rw [isBean] at claiming
    dsimp only at claiming
    by_cases known : context.processed.contains (ref.id, place)
    · rw [if_pos known] at claiming
      rw [Run.after_bind_of_ok claiming]
      exact tallied
    · rw [if_neg known] at claiming
      rw [Run.after_bind_of_ok claiming]
      have new : (ref.id, place) ∉ context.notes.processed := fun member =>
        known (List.contains_iff_mem.mpr member)
      exact next { context with processed := (ref.id, place) :: context.processed }
        (tallied.awaits isBean new)

/-- **Validating a constraint keeps the tally**: it is evaluated only where its claim is new. -/
theorem tallied_after_validateConstraint (type : TypeKey) (property : Option String) (index : Nat)
    (node : ConstraintNode) (context : Context) (tallied : context.notes.Tallied) :
    ((Engine.validateConstraintBy environment (Run.fetch environment) ⟨type, property, [index]⟩
      node).after context).notes.Tallied := by
  unfold Engine.validateConstraintBy
  rw [Run.after_bind_of_ok (Run.get_apply context)]
  split
  · exact tallied
  · refine tallied_after_claim (fun later awaits => ?_) context tallied
    cases node.content.access with
    | none => exact tallied_after_evaluate rfl context.bean node later awaits
    | some access => exact tallied_after_withFetched rfl access node later awaits

/-- The engine is its own companion, and keeps the tally. -/
theorem tallied_companions (environment : Environment) :
    Companions environment (Notes.Keeps Notes.Tallied) (Run.fetch environment)
      (Run.fetch environment) where
  turns keeps _ _ :=
    ⟨congrArg Trace.turned keeps.same, keeps.kept.economical, keeps.kept.claimed⟩
  records := Records.of_kept Notes.Tallied.record
  fetches := fetch_keeps Notes.Tallied.record Notes.Tallied.remembering
  examines type property index node :=
    together_keeps_iff.mpr (tallied_after_validateConstraint type property index node)

end Examining

/-! ### Calls -/

theorem Validator.economical (validator : Validator) (heap : Heap) (validation : Validation) :
    Economical (validator.perform heap validation).journal := by
  have blank : Notes.blank.Tallied := ⟨.nil, fun _ _ _ member => absurd member List.not_mem_nil⟩
  obtain ⟨failure, later, _, keeps, performed, -⟩ :=
    Companions.outcomes validator heap Run.fetch Run.fetch (tallied_companions _) ⟨rfl, blank⟩
      validation
  rw [Validator.perform_eq_by, performed]
  exact keeps.kept.economical

theorem Validator.economical_batch (validator : Validator) (heap : Heap)
    (requested : List TypeKey) (roots : List Value) :
    ∀ outcome ∈ (validator.validateBatch heap requested roots).1, Economical outcome.journal := by
  induction roots generalizing validator with
  | nil => exact fun _ member => absurd member List.not_mem_nil
  | cons root rest ih =>
    intro outcome member
    rcases List.mem_cons.mp member with rfl | member
    · exact validator.economical heap (.graph root requested)
    · exact ih _ outcome member

/-- **No constraint is evaluated twice on a bean in one call**, and one that a composite is made of
at most once for each evaluation of the composite. -/
theorem constraints_evaluated_once (validator : Validator) (heap : Heap) :
    (∀ validation, Economical (validator.perform heap validation).journal)
      ∧ ∀ requested roots, ∀ outcome ∈ (validator.validateBatch heap requested roots).1,
        Economical outcome.journal :=
  ⟨validator.economical heap, validator.economical_batch heap⟩

end GraphValidation
