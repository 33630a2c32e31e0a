/-
**What comes of the duties at a stop.**

What a constraint finds at a stop does not depend on the ledger; the ledger only says whether it has
been evaluated on the bean before.  So a call is known from the findings at its stops.

* `Setting.findings` — what a duty finds at a stop.
* `Setting.examine_apply` — **examining a duty enters its findings**, if it is a member of the group
  and new.
* `Setting.examined` — the ledger after an examination.
* `Setting.pass_of_duties` — **what holds of the duties holds of a pass**, for properties that hold of
  steps one after the other.
* `Entry.Keeps`, `Setting.call_keeps` — what every duty of every stop keeps is kept by a call.
* `Entry.Lengthens` — a step never takes back a violation.
-/
import GraphValidation.Proofs.Survey

namespace GraphValidation

/-- Whether a duty belongs to a group. -/
def Duty.belongs (types : TypeSystem) (duty : Duty) (group : TypeKey) : Bool :=
  isMember types duty.node.content.groups duty.node.content.owner group

/-- What a duty finds at a stop: nothing where the resolver forbids it, and an error where the
resolver or the reading fails. -/
def Setting.findings (setting : Setting) (stop : Stop) (duty : Duty) : Findings :=
  let site := setting.site stop duty.place.property
  match duty.node.content.access with
  | none => judge setting.environment site duty.place stop.bean duty.node
  | some access => match setting.isOpen site access.kind with
    | .error error => .failed error
    | .ok false => .nothing
    | .ok true => match setting.value site access with
      | .error error => .failed error
      | .ok value => judge setting.environment site duty.place value duty.node

/-- What a duty finds is the judgement of what it reads, or it reads nothing and finds nothing. -/
theorem Setting.findings_cases (setting : Setting) (stop : Stop) (duty : Duty) :
    (∃ value, setting.findings stop duty = judge setting.environment
          (setting.site stop duty.place.property) duty.place value duty.node
        ∧ match duty.node.content.access with
          | none => value = stop.bean
          | some access => setting.value (setting.site stop duty.place.property) access = .ok value)
      ∨ (setting.findings stop duty).violations = [] ∧ (setting.findings stop duty).places = [] := by
  unfold findings
  cases duty.node.content.access with
  | none => exact .inl ⟨stop.bean, rfl, rfl⟩
  | some access =>
    dsimp only
    cases setting.isOpen (setting.site stop duty.place.property) access.kind with
    | error error => exact .inr ⟨rfl, rfl⟩
    | ok answer =>
      cases answer with
      | false => exact .inr ⟨rfl, rfl⟩
      | true =>
        cases read : setting.value (setting.site stop duty.place.property) access with
        | error error => exact .inr ⟨rfl, rfl⟩
        | ok value => exact .inl ⟨value, rfl, rfl⟩

namespace Ledger

/-- Whether a constraint has been evaluated on a bean. -/
def claimed (ledger : Ledger) (bean : Value) (place : NodePlace) : Bool :=
  match bean.bean? with
  | none => false
  | some ref => ledger.processed.contains (ref.id, place)

/-- The ledger after a constraint is known to be evaluated on a bean. -/
def claiming (ledger : Ledger) (bean : Value) (place : NodePlace) : Ledger :=
  match bean.bean? with
  | none => ledger
  | some ref => { ledger with processed := (ref.id, place) :: ledger.processed }

/-- The result of entering findings. -/
def concluding (ledger : Ledger) (site : Site) (group : TypeKey) (findings : Findings) :
    EStateM.Result ValidationError Ledger Unit :=
  match findings.failure with
  | none => .ok () (ledger.noting site group findings)
  | some error => .error error (ledger.noting site group findings)

end Ledger

theorem Entry.claim_apply (bean : Value) (place : NodePlace) (ledger : Ledger) :
    Entry.claim bean place ledger = if ledger.claimed bean place then .ok false ledger
      else .ok true (ledger.claiming bean place) := by
  unfold Entry.claim Ledger.claimed Ledger.claiming
  cases bean.bean? <;> rfl

namespace Setting

variable {setting : Setting}

/-- **Examining a duty enters its findings**, if it belongs to the group and is new. -/
theorem examine_apply (setting : Setting) (group : TypeKey) (stop : Stop) (duty : Duty)
    (ledger : Ledger) :
    setting.examine group stop duty ledger
      = if duty.belongs setting.environment.types group && !ledger.claimed stop.bean duty.place then
          (ledger.claiming stop.bean duty.place).concluding
            (setting.site stop duty.place.property) group (setting.findings stop duty)
        else .ok () ledger := by
  unfold examine Duty.belongs
  cases isMember setting.environment.types duty.node.content.groups duty.node.content.owner
      group with
  | false => rfl
  | true =>
    simp only [if_true, Run.bind_apply, Entry.claim_apply, Bool.true_and]
    cases ledger.claimed stop.bean duty.place with
    | true => rfl
    | false =>
      unfold findings
      simp only [Bool.false_eq_true, if_false, Bool.not_false, if_true]
      cases duty.node.content.access with
      | none => rfl
      | some access =>
        simp only [Run.bind_apply]
        cases setting.isOpen (setting.site stop duty.place.property) access.kind with
        | error error => rfl
        | ok answer =>
          cases answer with
          | false => rfl
          | true =>
            cases setting.value (setting.site stop duty.place.property) access <;> rfl

end Setting

/-- The ledger after a new duty of a group was examined. -/
def Setting.examined (setting : Setting) (group : TypeKey) (stop : Stop) (duty : Duty)
    (ledger : Ledger) : Ledger :=
  (ledger.claiming stop.bean duty.place).noting (setting.site stop duty.place.property) group
    (setting.findings stop duty)

namespace Setting

variable {setting : Setting} {group : TypeKey} {stop : Stop} {duty : Duty} {ledger : Ledger}

theorem examine_of_other (other : duty.belongs setting.environment.types group = false) :
    setting.examine group stop duty ledger = .ok () ledger := by
  rw [examine_apply, other, Bool.false_and, if_neg Bool.false_ne_true]

theorem examine_of_claimed (claimed : ledger.claimed stop.bean duty.place = true) :
    setting.examine group stop duty ledger = .ok () ledger := by
  rw [examine_apply, claimed, Bool.not_true, Bool.and_false, if_neg Bool.false_ne_true]

theorem examine_of_new (belongs : duty.belongs setting.environment.types group = true)
    (new : ledger.claimed stop.bean duty.place = false) :
    setting.examine group stop duty ledger = match (setting.findings stop duty).failure with
      | none => .ok () (setting.examined group stop duty ledger)
      | some error => .error error (setting.examined group stop duty ledger) := by
  rw [examine_apply, belongs, new]
  rfl

end Setting

/-- An examination that succeeds has passed over the duty, or has evaluated it. -/
theorem Setting.examine_eq_ok {setting : Setting} {group : TypeKey} {stop : Stop} {duty : Duty}
    {ledger later : Ledger} (succeeded : setting.examine group stop duty ledger = .ok () later) :
    later = ledger ∧ (duty.belongs setting.environment.types group = false
        ∨ ledger.claimed stop.bean duty.place = true)
      ∨ later = setting.examined group stop duty ledger
        ∧ duty.belongs setting.environment.types group = true
        ∧ ledger.claimed stop.bean duty.place = false
        ∧ (setting.findings stop duty).failure = none := by
  cases belongs : duty.belongs setting.environment.types group with
  | false =>
    rw [examine_of_other belongs] at succeeded
    cases succeeded
    exact .inl ⟨rfl, .inl rfl⟩
  | true =>
    cases claimed : ledger.claimed stop.bean duty.place with
    | true =>
      rw [examine_of_claimed claimed] at succeeded
      cases succeeded
      exact .inl ⟨rfl, .inr rfl⟩
    | false =>
      rw [examine_of_new belongs claimed] at succeeded
      cases failure : (setting.findings stop duty).failure with
      | some error => simp [failure] at succeeded
      | none =>
        simp only [failure] at succeeded
        cases succeeded
        exact .inr ⟨rfl, rfl, rfl, rfl⟩

theorem Entry.upToFirst_cons (step : TypeKey → Entry Unit) (group : TypeKey) (rest : List TypeKey)
    (ledger : Ledger) :
    Entry.upToFirst step (group :: rest) ledger = match step group ledger with
      | .ok _ later => if ledger.reported.length < later.reported.length then .ok () later
        else Entry.upToFirst step rest later
      | .error error later => .error error later := by
  simp only [Entry.upToFirst, Run.bind_apply, Run.get_apply]
  cases step group ledger with
  | error error later => rfl
  | ok _ later =>
    simp only
    split <;> rfl

namespace Entry

theorem andThen_eq_ok {entry next : Entry Unit} {ledger later : Ledger}
    (succeeded : (do entry; next : Entry Unit) ledger = .ok () later) :
    ∃ between, entry ledger = .ok () between ∧ next between = .ok () later := by
  rw [Run.bind_apply] at succeeded
  cases middle : entry ledger with
  | error error between => simp [middle] at succeeded
  | ok _ between =>
    rw [middle] at succeeded
    exact ⟨between, rfl, succeeded⟩

/-- The first of some steps succeeds, and reports or is followed by the others. -/
theorem upToFirst_eq_ok {step : TypeKey → Entry Unit} {group : TypeKey} {rest : List TypeKey}
    {ledger later : Ledger} (succeeded : Entry.upToFirst step (group :: rest) ledger = .ok () later) :
    ∃ between, step group ledger = .ok () between
      ∧ (ledger.reported.length < between.reported.length ∧ later = between
        ∨ ¬ ledger.reported.length < between.reported.length
          ∧ Entry.upToFirst step rest between = .ok () later) := by
  rw [Entry.upToFirst_cons] at succeeded
  cases middle : step group ledger with
  | error error between => simp [middle] at succeeded
  | ok _ between =>
    simp only [middle] at succeeded
    refine ⟨between, rfl, ?_⟩
    by_cases reports : ledger.reported.length < between.reported.length
    · rw [if_pos reports] at succeeded
      cases succeeded
      exact .inl ⟨reports, rfl⟩
    · rw [if_neg reports] at succeeded
      exact .inr ⟨reports, succeeded⟩

end Entry

/-! ### From duties to passes -/

/-- A property of steps that holds of steps one after the other. -/
structure Entry.Closed (holds : Entry Unit → Prop) : Prop where
  nothing : holds (pure ())
  andThen : ∀ {entry next}, holds entry → holds next → holds (do entry; next)

theorem Entry.Closed.each {holds : Entry Unit → Prop} (closed : Entry.Closed holds) {α : Type}
    {step : α → Entry Unit} {items : List α} (steps : ∀ item ∈ items, holds (step item)) :
    holds (Entry.each step items) := by
  induction items with
  | nil => exact closed.nothing
  | cons item rest ih =>
    exact closed.andThen (steps item List.mem_cons_self)
      (ih fun other member => steps other (List.mem_cons_of_mem _ member))

/-- **What holds of the duties holds of a pass**, if it holds of redefined default groups as well. -/
theorem Setting.pass_of_duties {setting : Setting} {stops : List (Except ValidationError Stop)}
    {group : TypeKey} {holds : Entry Unit → Prop} (closed : Entry.Closed holds)
    (fails : ∀ error, holds (throw error))
    (arrives : ∀ stop, .ok stop ∈ stops → holds (Entry.arrive stop))
    (examines : ∀ stop, .ok stop ∈ stops → ∀ within, ∀ duty ∈ stop.metadata.duties,
      holds (setting.examine within stop duty))
    (redefined : ∀ stop, .ok stop ∈ stops → ∀ sequence, group = .defaultGroup →
      stop.metadata.groupSequence = some sequence → (∀ within, holds (setting.sweep stop within)) →
        holds (Entry.upToFirst (setting.sweep stop) sequence)) :
    holds (setting.pass stops group) := by
  refine closed.each fun stop member => ?_
  cases stop with
  | error error => exact fails error
  | ok stop =>
    have sweeps : ∀ within, holds (setting.sweep stop within) :=
      fun within => closed.each (examines stop member within)
    rw [visit_ok]
    refine closed.andThen (arrives stop member) ?_
    unfold validateStop
    cases carried : stop.metadata.groupSequence with
    | none => exact sweeps group
    | some sequence =>
      by_cases isDefault : group = .defaultGroup
      · simp only [if_pos isDefault]
        exact redefined stop member sequence isDefault carried sweeps
      · simp only [if_neg isDefault]
        exact sweeps group

/-! ### What a call keeps -/

/-- The ledger after an entry, also where it fails. -/
def Entry.after {α : Type} (entry : Entry α) (ledger : Ledger) : Ledger :=
  match entry ledger with
  | .ok _ later => later
  | .error _ later => later

/-- An entry keeps what holds of a ledger, and leaves something else where it fails. -/
def Entry.Keeps {α : Type} (kept left : Ledger → Prop) (entry : Entry α) : Prop :=
  ∀ ledger, kept ledger → match entry ledger with
    | .ok _ later => kept later
    | .error _ later => left later

namespace Entry.Keeps

variable {α β : Type} {kept left : Ledger → Prop}

theorem after {entry : Entry α} (keeps : Keeps kept kept entry) {ledger : Ledger}
    (holds : kept ledger) : kept (entry.after ledger) := by
  have afterwards := keeps ledger holds
  unfold Entry.after
  generalize entry ledger = result at afterwards
  cases result with
  | ok a later => exact afterwards
  | error error later => exact afterwards

theorem of_ok {entry : Entry α} (keeps : Keeps kept left entry) {ledger later : Ledger} {a : α}
    (holds : kept ledger) (succeeded : entry ledger = .ok a later) : kept later := by
  have afterwards := keeps ledger holds
  rw [succeeded] at afterwards
  exact afterwards

theorem pure (a : α) : Keeps kept left (Pure.pure a : Entry α) := fun _ holds => holds

theorem bind {entry : Entry α} {next : α → Entry β} (first : Keeps kept left entry)
    (second : ∀ a, Keeps kept left (next a)) : Keeps kept left (entry >>= next) := by
  intro ledger holds
  have middle := first ledger holds
  rw [Run.bind_apply]
  generalize entry ledger = result at middle
  cases result with
  | ok a later => exact second a later middle
  | error error later => exact middle

theorem closed : Entry.Closed (Keeps kept left) where
  nothing := pure ()
  andThen := fun first second => bind first fun _ => second

theorem upToFirst {step : TypeKey → Entry Unit} (steps : ∀ group, Keeps kept left (step group))
    (groups : List TypeKey) : Keeps kept left (Entry.upToFirst step groups) := by
  induction groups with
  | nil => exact pure ()
  | cons group rest ih =>
    have get : Keeps kept left (MonadState.get : Entry Ledger) := fun _ holds => holds
    refine bind get fun before => bind (steps group) fun _ => bind get fun later => ?_
    split
    · exact pure ()
    · exact ih

end Entry.Keeps

namespace Setting

variable {setting : Setting} {kept left : Ledger → Prop}
  {stops : List (Except ValidationError Stop)}

/-- What evaluations keep is kept by examining a duty. -/
theorem examine_keeps {group : TypeKey} {stop : Stop} {duty : Duty}
    (succeeds : ∀ ledger, kept ledger → duty.belongs setting.environment.types group = true →
      ledger.claimed stop.bean duty.place = false → (setting.findings stop duty).failure = none →
        kept (setting.examined group stop duty ledger))
    (fails : ∀ ledger, kept ledger → left (setting.examined group stop duty ledger)) :
    (setting.examine group stop duty).Keeps kept left := by
  intro ledger holds
  cases belongs : duty.belongs setting.environment.types group with
  | false =>
    rw [examine_of_other belongs]
    exact holds
  | true =>
    cases claimed : ledger.claimed stop.bean duty.place with
    | true =>
      rw [examine_of_claimed claimed]
      exact holds
    | false =>
      rw [examine_of_new belongs claimed]
      cases failure : (setting.findings stop duty).failure with
      | none => exact succeeds ledger holds belongs claimed failure
      | some error => exact fails ledger holds

/-- **What arrivals and duties keep is kept by a call.** -/
theorem call_keeps (groups : Groups) (between : ∀ ledger, kept ledger → left ledger)
    (arrives : ∀ stop, .ok stop ∈ stops → (Entry.arrive stop).Keeps kept left)
    (examines : ∀ stop, .ok stop ∈ stops → ∀ group, ∀ duty ∈ stop.metadata.duties,
      (setting.examine group stop duty).Keeps kept left) :
    (setting.call stops groups).Keeps kept left := by
  have passes : ∀ group, (setting.pass stops group).Keeps kept left := fun group =>
    pass_of_duties Entry.Keeps.closed (fun _ => between) arrives examines
      fun _ _ sequence _ _ sweeps => .upToFirst sweeps sequence
  exact .bind (Entry.Keeps.closed.each fun group _ => passes group) fun _ =>
    Entry.Keeps.closed.each fun sequence _ => .upToFirst passes sequence

theorem call_of_plain (setting : Setting) (stops : List (Except ValidationError Stop))
    (group : TypeKey) (ledger : Ledger) :
    setting.call stops ⟨[group], []⟩ ledger = setting.pass stops group ledger := by
  simp only [call, Entry.each, Run.bind_apply]
  cases setting.pass stops group ledger <;> rfl

theorem call_of_sequence (setting : Setting) (stops : List (Except ValidationError Stop))
    (sequence : List TypeKey) (ledger : Ledger) :
    setting.call stops ⟨[], [sequence]⟩ ledger
      = Entry.upToFirst (setting.pass stops) sequence ledger := by
  simp only [call, Entry.each, Run.bind_apply, Run.pure_apply]
  cases Entry.upToFirst (setting.pass stops) sequence ledger <;> rfl

theorem reported_examined {group : TypeKey} {stop : Stop} {duty : Duty} {ledger : Ledger} :
    (setting.examined group stop duty ledger).reported
      = (setting.findings stop duty).violations.reverse ++ ledger.reported := by
  unfold examined Ledger.claiming
  cases stop.bean.bean? <;> rfl

theorem deeds_examined {group : TypeKey} {stop : Stop} {duty : Duty} {ledger : Ledger} :
    (setting.examined group stop duty ledger).deeds
      = ((setting.findings stop duty).places.map (Event.evaluated stop.bean
          (setting.site stop duty.place.property).path group)).reverse ++ ledger.deeds := by
  unfold examined Ledger.claiming
  cases stop.bean.bean? <;> rfl

/-- Every reported violation is a finding of a duty at a stop. -/
theorem mem_reported_call (groups : Groups) {violation : Violation}
    (member : violation ∈ ((setting.call stops groups).after .blank).reported) :
    ∃ stop, .ok stop ∈ stops ∧ ∃ duty ∈ stop.metadata.duties,
      violation ∈ (setting.findings stop duty).violations := by
  let found := fun ledger : Ledger => ∀ violation ∈ ledger.reported,
    ∃ stop, .ok stop ∈ stops ∧ ∃ duty ∈ stop.metadata.duties,
      violation ∈ (setting.findings stop duty).violations
  have keeps : (setting.call stops groups).Keeps found found := by
    refine call_keeps groups (fun _ holds => holds) (fun stop _ ledger holds => holds) ?_
    intro stop member group duty own
    have entered : ∀ ledger, found ledger → found (setting.examined group stop duty ledger) := by
      intro ledger holds violation inside
      rw [reported_examined] at inside
      rcases List.mem_append.mp inside with new | old
      · exact ⟨stop, member, duty, own, List.mem_reverse.mp new⟩
      · exact holds violation old
    exact examine_keeps (fun ledger holds _ _ _ => entered ledger holds) entered
  have nothing : found .blank := fun _ none => absurd none List.not_mem_nil
  exact keeps.after nothing violation member

end Setting

/-! ### Steps that only add violations -/

namespace Entry

/-- A step never takes back a violation. -/
def Lengthens (entry : Entry Unit) : Prop :=
  ∀ ledger later, entry ledger = .ok () later → ledger.reported.length ≤ later.reported.length

namespace Lengthens

theorem nothing : Lengthens (Pure.pure ()) := by
  intro ledger later succeeded
  cases succeeded
  exact Nat.le_refl _

theorem andThen {entry next : Entry Unit} (first : Lengthens entry) (second : Lengthens next) :
    Lengthens (do entry; next) := by
  intro ledger later succeeded
  obtain ⟨between, leads, ends⟩ := Entry.andThen_eq_ok succeeded
  exact Nat.le_trans (first ledger between leads) (second between later ends)

theorem closed : Entry.Closed Lengthens := ⟨nothing, andThen⟩

theorem upToFirst {step : TypeKey → Entry Unit} (steps : ∀ group, Lengthens (step group))
    (groups : List TypeKey) : Lengthens (Entry.upToFirst step groups) := by
  induction groups with
  | nil => exact nothing
  | cons group rest ih =>
    intro ledger later succeeded
    obtain ⟨between, leads, ⟨reports, rfl⟩ | ⟨-, ends⟩⟩ := Entry.upToFirst_eq_ok succeeded
    · exact Nat.le_of_lt reports
    · exact Nat.le_trans (steps group ledger between leads) (ih between later ends)

theorem note (site : Site) (group : TypeKey) (findings : Findings) :
    Lengthens (Entry.note site group findings) := by
  intro ledger later succeeded
  unfold Entry.note at succeeded
  cases failure : findings.failure with
  | some error => simp [failure] at succeeded
  | none =>
    simp only [failure, EStateM.Result.ok.injEq, true_and] at succeeded
    rw [← succeeded, Ledger.noting, List.length_append]
    exact Nat.le_add_left _ _

theorem examine (setting : Setting) (group : TypeKey) (stop : Stop) (duty : Duty) :
    Lengthens (setting.examine group stop duty) := by
  intro ledger later succeeded
  rcases Setting.examine_eq_ok succeeded with ⟨rfl, -⟩ | ⟨rfl, -⟩
  · exact Nat.le_refl _
  · rw [Setting.reported_examined, List.length_append]
    exact Nat.le_add_left _ _

end Lengthens

end Entry

end GraphValidation
