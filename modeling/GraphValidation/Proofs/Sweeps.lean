/-
**A pass evaluates each constraint once.**

Where no type redefines the default group, a pass that succeeds sweeps over the duties of each stop:
those that belong to its group are evaluated, in order, unless they have been before.

* `Setting.evaluations`, `Setting.deedsAt` — what a duty and a stop add to the deeds of a pass.
* `MetaBean.duties_nodup` — the duties of well-formed metadata have different places.
* `Setting.pass_ok` — **the deeds of a pass that succeeds**, from a ledger that knows none of its
  beans.
-/
import GraphValidation.Proofs.Duties
import GraphValidation.Proofs.Itinerary

namespace GraphValidation

/-! ### Places -/

/-- A place is that of a constraint that another one is composed of. -/
def NodePlace.Above (place other : NodePlace) : Prop :=
  other.type = place.type ∧ other.property = place.property
    ∧ ∃ more, more ≠ [] ∧ other.positions = place.positions ++ more

theorem NodePlace.not_above_self (place : NodePlace) : ¬ place.Above place := by
  rintro ⟨-, -, more, some, same⟩
  exact some (List.self_eq_append_right.mp same)

theorem NodePlace.above_of_above_child {place other : NodePlace} {index : Nat}
    (below : NodePlace.Above { place with positions := place.positions ++ [index] } other) :
    place.Above other := by
  obtain ⟨type, property, more, -, same⟩ := below
  refine ⟨type, property, index :: more, nofun, ?_⟩
  rw [same]
  simp

theorem NodePlace.above_child (place : NodePlace) (index : Nat) :
    place.Above { place with positions := place.positions ++ [index] } :=
  ⟨rfl, rfl, [index], nofun, rfl⟩

theorem Findings.mem_places_andThen {first second : Findings} {place : NodePlace}
    (member : place ∈ (first.andThen second).places) :
    place ∈ first.places ∨ place ∈ second.places := by
  unfold andThen at member
  cases failure : first.failure with
  | some error =>
    simp only [failure] at member
    exact .inl member
  | none =>
    simp only [failure] at member
    exact List.mem_append.mp member

section Judgements

variable {environment : Environment} {site : Site} {value : Value}

theorem judgeOwn_places (node : ConstraintNode) :
    (judgeOwn environment site value node).places = [] := by
  unfold judgeOwn
  cases node.content.validator with
  | none => rfl
  | some named =>
    obtain ⟨name, predicate⟩ := named
    simp only
    cases predicate environment.heap value (.start node.content.template) with
    | error error => rfl
    | ok answer =>
      obtain ⟨valid, report⟩ := answer
      cases valid <;> rfl

mutual

/-- The evaluation of a constraint starts at its place and goes on below. -/
theorem judge_places (place : NodePlace) (node : ConstraintNode) :
    ∃ rest, (judge environment site place value node).places = place :: rest
      ∧ ∀ other ∈ rest, place.Above other := by
  cases node with
  | mk content composing =>
    have below := judgeAll_places place 0 composing
    have own : (judgeOwn environment site value (.mk content composing)).places = [] :=
      judgeOwn_places (.mk content composing)
    unfold judge
    refine ⟨_, rfl, fun other member => ?_⟩
    split at member
    · rcases Findings.mem_places_andThen member with silent | later
      · exact below other silent
      · split at later
        · rw [own] at later
          cases later
        · cases later
    · rcases Findings.mem_places_andThen member with inner | later
      · exact below other inner
      · rw [own] at later
        cases later

theorem judgeAll_places (place : NodePlace) (index : Nat) (nodes : List ConstraintNode) :
    ∀ other ∈ (judgeAll environment site place index value nodes).places, place.Above other := by
  cases nodes with
  | nil => exact nofun
  | cons node rest =>
    intro other member
    unfold judgeAll at member
    rcases Findings.mem_places_andThen member with first | later
    · obtain ⟨inner, places, below⟩ := judge_places
        { place with positions := place.positions ++ [index] } node
      rw [places] at first
      cases first with
      | head => exact place.above_child index
      | tail _ inside => exact NodePlace.above_of_above_child (below other inside)
    · exact judgeAll_places place (index + 1) rest other later

end

end Judgements

/-- The duties of a list of constraints have different places. -/
theorem dutiesFrom_nodup (type : TypeKey) (property : Option String) (index : Nat)
    (nodes : List ConstraintNode) :
    ((dutiesFrom type property index nodes).map (·.place)).Nodup := by
  induction nodes generalizing index with
  | nil => exact List.nodup_nil
  | cons node rest ih =>
    rw [dutiesFrom, List.map_cons]
    refine List.nodup_cons.mpr ⟨fun again => ?_, ih (index + 1)⟩
    obtain ⟨duty, inside, same⟩ := List.mem_map.mp again
    obtain ⟨-, -, -, position, after, positions⟩ := mem_dutiesFrom inside
    rw [same] at positions
    cases positions
    exact Nat.not_succ_le_self _ after

/-- **The duties of well-formed metadata have different places.** -/
theorem MetaBean.duties_nodup {metadata : MetaBean} (wellFormed : metadata.WellFormed) :
    (metadata.duties.map (·.place)).Nodup := by
  have named := fun (property : Option String) {nodes : List ConstraintNode} {duty : Duty}
    (member : duty ∈ dutiesFrom metadata.type property 0 nodes) => (mem_dutiesFrom member).2.2.1
  unfold MetaBean.duties
  rw [List.map_append, List.map_flatMap]
  refine List.nodup_append.mpr ⟨?_, dutiesFrom_nodup _ _ _ _, ?_⟩
  · refine List.pairwise_flatMap.mpr ⟨fun property _ => dutiesFrom_nodup _ _ _ _, ?_⟩
    refine (List.pairwise_map.mp wellFormed.names).imp fun {first second} different => ?_
    intro place inFirst other inSecond same
    obtain ⟨duty, inside, rfl⟩ := List.mem_map.mp inFirst
    obtain ⟨more, insideOther, rfl⟩ := List.mem_map.mp inSecond
    have names : some first.name = some second.name := by
      rw [← named _ inside, ← named _ insideOther, same]
    exact different (Option.some.inj names)
  · intro place inProperties other inType same
    obtain ⟨property, -, inFirst⟩ := List.mem_flatMap.mp inProperties
    obtain ⟨duty, inside, rfl⟩ := List.mem_map.mp inFirst
    obtain ⟨more, insideOther, rfl⟩ := List.mem_map.mp inType
    have names : some property.name = none := by
      rw [← named _ inside, ← named _ insideOther, same]
    cases names

/-! ### The deeds of a pass -/

namespace Setting

variable {setting : Setting} {group : TypeKey}

/-- What a duty evaluates lies at its place or below. -/
theorem mem_places_findings {stop : Stop} {duty : Duty} {place : NodePlace}
    (member : place ∈ (setting.findings stop duty).places) :
    place = duty.place ∨ duty.place.Above place := by
  rcases setting.findings_cases stop duty with ⟨value, judged, -⟩ | ⟨-, none⟩
  · obtain ⟨rest, places, below⟩ := judge_places duty.place duty.node
    rw [judged, places] at member
    exact (List.mem_cons.mp member).imp_right (below place)
  · rw [none] at member
    cases member

/-- Where the resolver allows everything, a duty that does not fail is evaluated. -/
theorem findings_places (allowing : setting.environment.resolver = .default) {stop : Stop}
    {duty : Duty} (succeeded : (setting.findings stop duty).failure = none) :
    ∃ rest, (setting.findings stop duty).places = duty.place :: rest
      ∧ ∀ other ∈ rest, duty.place.Above other := by
  unfold findings at succeeded ⊢
  cases way : duty.node.content.access with
  | none => exact judge_places duty.place duty.node
  | some access =>
    have allowed : setting.isOpen (setting.site stop duty.place.property) access.kind = .ok true := by
      simp [isOpen, answer, allowing, Resolver.default]
    simp only [way, allowed] at succeeded ⊢
    cases read : setting.value (setting.site stop duty.place.property) access with
    | error error => simp [read, Findings.failed] at succeeded
    | ok value => exact judge_places duty.place duty.node

/-- The evaluations of a duty at a stop in a group. -/
def evaluations (setting : Setting) (group : TypeKey) (stop : Stop) (duty : Duty) : List Event :=
  if duty.belongs setting.environment.types group then
    (setting.findings stop duty).places.map
      (Event.evaluated stop.bean (setting.site stop duty.place.property).path group)
  else []

theorem mem_evaluations {stop : Stop} {duty : Duty} {event : Event} :
    event ∈ setting.evaluations group stop duty
      ↔ duty.belongs setting.environment.types group = true
        ∧ event ∈ (setting.findings stop duty).places.map
          (Event.evaluated stop.bean (setting.site stop duty.place.property).path group) := by
  unfold evaluations
  cases duty.belongs setting.environment.types group <;> simp

/-- The deeds at a stop in a group. -/
def deedsAt (setting : Setting) (group : TypeKey) (stop : Stop) : List Event :=
  .entered stop.bean stop.metadata stop.path
    :: stop.metadata.duties.flatMap (setting.evaluations group stop)

end Setting

/-! ### Claims -/

namespace Ledger

variable {ledger : Ledger} {bean : Value} {place : NodePlace}

theorem claimed_claiming_of_ne {other : NodePlace} (different : other ≠ place) :
    (ledger.claiming bean place).claimed bean other = ledger.claimed bean other := by
  unfold claimed claiming
  cases bean.bean? with
  | none => rfl
  | some ref => simp [different]

theorem claimed_claiming_of_apart {other : Value} {elsewhere : NodePlace}
    (apart : ∀ id, other.bean?.map (·.id) = some id → bean.bean?.map (·.id) ≠ some id) :
    (ledger.claiming bean place).claimed other elsewhere = ledger.claimed other elsewhere := by
  unfold claimed claiming
  cases isOther : other.bean? with
  | none => rfl
  | some ref =>
    have different := apart ref.id (by rw [isOther]; rfl)
    cases isBean : bean.bean? with
    | none => rfl
    | some own =>
      have ids : ref.id ≠ own.id := fun same => different (by rw [isBean, same]; rfl)
      simp [ids]

@[simp] theorem claimed_noting (findings : Findings) (group : TypeKey) (site : Site) (other : Value)
    (elsewhere : NodePlace) :
    (ledger.noting site group findings).claimed other elsewhere = ledger.claimed other elsewhere :=
  rfl

end Ledger

/-! ### Sweeps and passes -/

namespace Setting

variable {setting : Setting} {group : TypeKey}

/-- What is left of a ledger by duties of one bean: the claims on other beans. -/
def SparesOthers (bean : Value) (ledger later : Ledger) : Prop :=
  ∀ other elsewhere, (∀ id, other.bean?.map (·.id) = some id → bean.bean?.map (·.id) ≠ some id) →
    later.claimed other elsewhere = ledger.claimed other elsewhere

/-- **New duties that succeed are evaluated**, one after the other. -/
theorem each_examine_ok {stop : Stop} {duties : List Duty} {ledger later : Ledger}
    (nodup : (duties.map (·.place)).Nodup)
    (new : ∀ duty ∈ duties, ledger.claimed stop.bean duty.place = false)
    (succeeded : Entry.each (setting.examine group stop) duties ledger = .ok () later) :
    later.deeds = (duties.flatMap (setting.evaluations group stop)).reverse ++ ledger.deeds
      ∧ (∀ duty ∈ duties, duty.belongs setting.environment.types group →
        (setting.findings stop duty).failure = none)
      ∧ SparesOthers stop.bean ledger later := by
  -- Duties have different places, so what one claims is not what the next one asks for.
  induction duties generalizing ledger with
  | nil =>
    cases succeeded
    exact ⟨rfl, nofun, fun _ _ _ => rfl⟩
  | cons duty rest ih =>
    obtain ⟨apart, nodup⟩ := List.nodup_cons.mp nodup
    have unclaimed := new duty List.mem_cons_self
    have newRest := fun other member => new other (List.mem_cons_of_mem duty member)
    rw [Entry.each, Run.bind_apply] at succeeded
    cases examined : setting.examine group stop duty ledger with
    | error error between => simp [examined] at succeeded
    | ok _ between =>
      rw [examined] at succeeded
      rcases examine_eq_ok examined with
        ⟨rfl, passed⟩ | ⟨rfl, belongs, -, failure⟩
      · have other := passed.resolve_right (by rw [unclaimed]; exact Bool.false_ne_true)
        obtain ⟨deeds, flawless, spares⟩ := ih nodup newRest succeeded
        refine ⟨?_, fun another member => ?_, spares⟩
        · rw [deeds]
          simp [evaluations, other]
        · cases member with
          | head => exact fun belonging => absurd (other.symm.trans belonging) Bool.false_ne_true
          | tail _ member => exact flawless another member
      · obtain ⟨deeds, flawless, spares⟩ := ih nodup (fun other member => by
          have different : other.place ≠ duty.place := fun same =>
            apart (List.mem_map.mpr ⟨other, member, same⟩)
          rw [Setting.examined, Ledger.claimed_noting, Ledger.claimed_claiming_of_ne different]
          exact newRest other member) succeeded
        refine ⟨?_, fun other member => ?_, fun other elsewhere different => ?_⟩
        · rw [deeds]
          simp [evaluations, belongs, deeds_examined]
        · cases member with
          | head => exact fun _ => failure
          | tail _ member => exact flawless other member
        · rw [spares other elsewhere different, Setting.examined, Ledger.claimed_noting,
            Ledger.claimed_claiming_of_apart different]

/-- The deeds at the stops of a pass. -/
def deedsOf (setting : Setting) (group : TypeKey) : Except ValidationError Stop → List Event
  | .ok stop => setting.deedsAt group stop
  | .error _ => []

/-- A stop whose constraints a pass sweeps over. -/
structure Plain (stop : Stop) : Prop where
  bean : stop.bean.bean?.isSome
  sequence : stop.metadata.groupSequence = none
  duties : (stop.metadata.duties.map (·.place)).Nodup

/-- **The deeds of a pass that succeeds.**  It meets no error between the stops, and no duty of its
group fails. -/
theorem pass_ok {stops : List (Except ValidationError Stop)} {ledger later : Ledger}
    (plain : ∀ stop, .ok stop ∈ stops → Plain stop) (nodup : (idsOf stops).Nodup)
    (new : ∀ stop, .ok stop ∈ stops → ∀ place, ledger.claimed stop.bean place = false)
    (succeeded : setting.pass stops group ledger = .ok () later) :
    (∀ error, .error error ∉ stops)
      ∧ later.deeds = (stops.flatMap (setting.deedsOf group)).reverse ++ ledger.deeds
      ∧ ∀ stop, .ok stop ∈ stops → ∀ duty ∈ stop.metadata.duties,
        duty.belongs setting.environment.types group →
          (setting.findings stop duty).failure = none := by
  -- The duties of a stop claim its bean only, and no bean is a stop twice; so each stop finds its
  -- duties unclaimed.
  induction stops generalizing ledger with
  | nil =>
    cases succeeded
    exact ⟨nofun, rfl, nofun⟩
  | cons first rest ih =>
    unfold pass at succeeded ih
    rw [Entry.each, Run.bind_apply] at succeeded
    cases first with
    | error error =>
      rw [visit_error] at succeeded
      cases succeeded
    | ok stop =>
      have here := plain stop List.mem_cons_self
      let arrived : Ledger :=
        { ledger with deeds := .entered stop.bean stop.metadata stop.path :: ledger.deeds }
      have visited : setting.visit group (.ok stop) ledger
          = Entry.each (setting.examine group stop) stop.metadata.duties arrived := by
        rw [visit_ok, validateStop, here.sequence]
        rfl
      rw [visited] at succeeded
      cases swept : Entry.each (setting.examine group stop) stop.metadata.duties arrived with
      | error error between => simp [swept] at succeeded
      | ok _ between =>
        rw [swept] at succeeded
        have unclaimed : ∀ duty ∈ stop.metadata.duties,
            arrived.claimed stop.bean duty.place = false :=
          fun duty _ => new stop List.mem_cons_self duty.place
        obtain ⟨deedsHere, flawlessHere, spares⟩ := each_examine_ok here.duties unclaimed swept
        have later := ih (fun other member => plain other (List.mem_cons_of_mem _ member))
          (nodup_idsOf_rest nodup) (fun other member place => by
            rw [spares other.bean place fun id known same => apart_of_nodup nodup member id same known]
            exact new other (List.mem_cons_of_mem _ member) place) succeeded
        obtain ⟨noErrors, deeds, flawless⟩ := later
        refine ⟨fun error member => ?_, ?_, fun other member => ?_⟩
        · cases member with
          | tail _ member => exact noErrors error member
        · rw [deeds, deedsHere]
          simp [deedsOf, deedsAt, arrived]
        · cases member with
          | head => exact flawlessHere
          | tail _ member => exact flawless other member

end Setting

end GraphValidation
