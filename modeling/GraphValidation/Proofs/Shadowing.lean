/-
**What is left of a pass after other ones.**

A pass passes over the constraints that passes before it have evaluated.  What these have found has
been reported, so the pass leaves the violations that it reports alone, and those of before.  Where
nothing that it passes over has found anything, it even reports the same ones in the same order, and
then a sequence stops where it stops alone.

* `Setting.Shadows` — a shared ledger beside that of a pass alone.
* `Entry.Shadowed` — a step leaves shared ledgers shared.
* `Setting.pass_shadowed`, `Setting.call_shadowed` — **passes and calls are shadowed**.
* `Setting.each_call_shadowed` — **parts that do not hide violations from each other** report together
  what they report alone.
-/
import GraphValidation.Proofs.Settling

namespace GraphValidation

/-- A shared ledger shows what has been done alone and what had been done before: the same claims and
the same violations.  Strictly, it shows the violations in their order. -/
structure Setting.Shadows (setting : Setting) (stops : List (Except ValidationError Stop))
    (strict : Prop) (before alone shared : Ledger) : Prop where
  settled : shared.Settled setting stops
  claims : ∀ bean place, alone.claimed bean place = true → shared.claimed bean place = true
  bounded : ∀ bean place, shared.claimed bean place = true →
    alone.claimed bean place = true ∨ before.claimed bean place = true
  reported : ∀ violation, violation ∈ shared.reported
    ↔ violation ∈ alone.reported ∨ violation ∈ before.reported
  inOrder : strict → shared.reported = alone.reported ++ before.reported
  deeds : ∀ deed ∈ shared.deeds, deed ∈ alone.deeds ∨ deed ∈ before.deeds

/-- Where a step succeeds alone, having evaluated only what lies within a bound, it succeeds on a
related ledger, and leaves the ledgers related. -/
structure Entry.Shadowed (related : Ledger → Ledger → Prop) (within : Value → NodePlace → Prop)
    (entry : Entry Unit) : Prop where
  grows : ∀ ledger later, entry ledger = .ok () later → ∀ bean place,
    ledger.claimed bean place = true → later.claimed bean place = true
  follows : ∀ alone shared later, related alone shared → entry alone = .ok () later →
    (∀ bean place, later.claimed bean place = true → within bean place) →
      ∃ after, entry shared = .ok () after ∧ related later after

namespace Entry.Shadowed

variable {related : Ledger → Ledger → Prop} {within : Value → NodePlace → Prop}

theorem nothing : Shadowed related within (Pure.pure ()) where
  grows := by
    rintro ledger later succeeded bean place claimed
    cases succeeded
    exact claimed
  follows := by
    rintro alone shared later holds succeeded _
    cases succeeded
    exact ⟨shared, rfl, holds⟩

theorem andThen {entry next : Entry Unit} (first : Shadowed related within entry)
    (second : Shadowed related within next) : Shadowed related within (do entry; next) where
  grows := by
    intro ledger later succeeded bean place claimed
    obtain ⟨between, leads, ends⟩ := Entry.andThen_eq_ok succeeded
    exact second.grows between later ends bean place
      (first.grows ledger between leads bean place claimed)
  follows := by
    intro alone shared later holds succeeded bounded
    obtain ⟨between, leads, ends⟩ := Entry.andThen_eq_ok succeeded
    obtain ⟨middle, leadsShared, holds⟩ := first.follows alone shared between holds leads
      fun bean place claimed => bounded bean place (second.grows between later ends bean place claimed)
    obtain ⟨after, endsShared, holds⟩ := second.follows between middle later holds ends bounded
    exact ⟨after, (Run.bind_of_ok leadsShared).trans endsShared, holds⟩

theorem closed : Entry.Closed (Shadowed related within) := ⟨nothing, andThen⟩

/-- Steps up to the first that reports end with the same one, where related ledgers count alike. -/
theorem upToFirst {step : TypeKey → Entry Unit} {more : Nat}
    (counts : ∀ alone shared, related alone shared →
      shared.reported.length = alone.reported.length + more)
    (steps : ∀ group, Shadowed related within (step group)) (groups : List TypeKey) :
    Shadowed related within (Entry.upToFirst step groups) := by
  induction groups with
  | nil => exact nothing
  | cons group rest ih =>
    constructor
    · intro ledger later succeeded bean place claimed
      obtain ⟨between, leads, ⟨-, rfl⟩ | ⟨-, ends⟩⟩ := Entry.upToFirst_eq_ok succeeded
      · exact (steps group).grows ledger _ leads bean place claimed
      · exact ih.grows between later ends bean place
          ((steps group).grows ledger between leads bean place claimed)
    · intro alone shared later holds succeeded bounded
      obtain ⟨between, leads, ⟨reports, rfl⟩ | ⟨silent, ends⟩⟩ := Entry.upToFirst_eq_ok succeeded
      · obtain ⟨after, leadsShared, related⟩ :=
          (steps group).follows alone shared _ holds leads bounded
        have first := counts alone shared holds
        have last := counts _ after related
        rw [Entry.upToFirst_cons, leadsShared]
        exact ⟨after, if_pos (by omega), related⟩
      · obtain ⟨middle, leadsShared, related⟩ := (steps group).follows alone shared between holds leads
          fun bean place claimed => bounded bean place (ih.grows between later ends bean place claimed)
        have first := counts alone shared holds
        have last := counts between middle related
        simp only [Entry.upToFirst_cons, leadsShared]
        rw [if_neg (by omega)]
        exact ih.follows between middle later related ends bounded

end Entry.Shadowed

namespace Setting

variable {setting : Setting} {stops : List (Except ValidationError Stop)} {strict : Prop}
  {before : Ledger} {within : Value → NodePlace → Prop} {group : TypeKey}

/-- Nothing that lies within a bound and was evaluated before has found anything. -/
def Quiet (setting : Setting) (stops : List (Except ValidationError Stop)) (before : Ledger)
    (within : Value → NodePlace → Prop) : Prop :=
  ∀ stop, .ok stop ∈ stops → ∀ duty ∈ stop.metadata.duties, within stop.bean duty.place →
    before.claimed stop.bean duty.place = true → (setting.findings stop duty).violations = []

/-- **Examining a duty is shadowed**, strictly where it has found nothing before. -/
theorem examine_shadowed (orderly : Orderly stops)
    (quiet : strict → setting.Quiet stops before within) {stop : Stop} (member : .ok stop ∈ stops)
    {duty : Duty} (own : duty ∈ stop.metadata.duties) :
    (setting.examine group stop duty).Shadowed (setting.Shadows stops strict before) within := by
  constructor
  · intro ledger later succeeded bean place claimed
    rcases examine_eq_ok succeeded with ⟨rfl, -⟩ | ⟨rfl, -⟩
    · exact claimed
    · exact Ledger.claimed_claiming_of_claimed claimed
  · intro alone shared later holds succeeded bounded
    rcases examine_eq_ok succeeded with ⟨rfl, passed⟩ | ⟨rfl, belongs, unclaimed, failure⟩
    · refine ⟨shared, passed.elim examine_of_other fun claimed => ?_, holds⟩
      exact examine_of_claimed (holds.claims _ _ claimed)
    · cases known : shared.claimed stop.bean duty.place with
      | true =>
        -- The violations of the duty have been reported; strictly, there are none.
        have reported := (holds.settled stop member duty own known).2
        have silent : strict → (setting.findings stop duty).violations = [] := by
          intro isStrict
          have earlier := (holds.bounded _ _ known).resolve_left (by
            rw [unclaimed]
            exact Bool.false_ne_true)
          obtain ⟨id, isBean⟩ := Ledger.exists_id_of_claimed known
          exact quiet isStrict stop member duty own
            (bounded _ _ (Ledger.claimed_claiming_self isBean isBean)) earlier
        refine ⟨shared, examine_of_claimed known, holds.settled, fun bean place now => ?_,
          fun bean place now => ?_, fun violation => ?_, fun isStrict => ?_, fun deed done => ?_⟩
        · rcases Ledger.of_claimed_claiming now with early | ⟨rfl, id, isBean, isStop⟩
          · exact holds.claims bean place early
          · exact Ledger.claimed_of_same isBean isStop known
        · exact (holds.bounded bean place now).imp_left Ledger.claimed_claiming_of_claimed
        · rw [reported_examined, List.mem_append, List.mem_reverse, holds.reported]
          refine ⟨fun either => either.imp_left .inr, fun either => ?_⟩
          rcases either with (found | early) | early
          · exact (holds.reported violation).mp (reported violation found)
          · exact .inl early
          · exact .inr early
        · rw [reported_examined, silent isStrict, holds.inOrder isStrict]
          rfl
        · rw [deeds_examined]
          exact (holds.deeds deed done).imp_left (List.mem_append_right _)
      | false =>
        refine ⟨setting.examined group stop duty shared, ?_,
          holds.settled.examined orderly member own failure, fun bean place now => ?_,
          fun bean place now => ?_, fun violation => ?_, fun isStrict => ?_, fun deed done => ?_⟩
        · rw [examine_of_new belongs known, failure]
        · rcases Ledger.of_claimed_claiming now with early | ⟨rfl, id, isBean, isStop⟩
          · exact Ledger.claimed_claiming_of_claimed (holds.claims bean place early)
          · exact Ledger.claimed_claiming_self isBean isStop
        · rcases Ledger.of_claimed_claiming now with early | ⟨rfl, id, isBean, isStop⟩
          · exact (holds.bounded bean place early).imp_left Ledger.claimed_claiming_of_claimed
          · exact .inl (Ledger.claimed_claiming_self isBean isStop)
        · rw [reported_examined, reported_examined, List.mem_append, List.mem_append,
            holds.reported, or_assoc]
        · rw [reported_examined, reported_examined, holds.inOrder isStrict, List.append_assoc]
        · rw [deeds_examined] at done ⊢
          rcases List.mem_append.mp done with new | old
          · exact .inl (List.mem_append_left _ new)
          · exact (holds.deeds deed old).imp_left (List.mem_append_right _)

theorem arrive_shadowed (stop : Stop) :
    (Entry.arrive stop).Shadowed (setting.Shadows stops strict before) within := by
  constructor
  · rintro ledger later succeeded bean place claimed
    cases succeeded
    exact claimed
  · rintro alone shared later holds succeeded -
    cases succeeded
    refine ⟨_, rfl, holds.settled, holds.claims, holds.bounded, holds.reported, holds.inOrder,
      fun deed done => ?_⟩
    cases done with
    | head => exact .inl List.mem_cons_self
    | tail _ early => exact (holds.deeds deed early).imp_left (List.mem_cons_of_mem _)

theorem Shadows.length_reported {alone shared : Ledger} (isStrict : strict)
    (shadows : setting.Shadows stops strict before alone shared) :
    shared.reported.length = alone.reported.length + before.reported.length := by
  rw [shadows.inOrder isStrict, List.length_append]

/-- **A pass is shadowed**, if it is strict or stops at no bean for a redefined default group. -/
theorem pass_shadowed (orderly : Orderly stops)
    (quiet : strict → setting.Quiet stops before within)
    (straight : strict ∨ ∀ stop, .ok stop ∈ stops → group = .defaultGroup →
      stop.metadata.groupSequence = none) :
    (setting.pass stops group).Shadowed (setting.Shadows stops strict before) within := by
  refine pass_of_duties Entry.Shadowed.closed (fun error => ?_) (fun stop _ => arrive_shadowed stop)
    (fun stop member group duty own => examine_shadowed orderly quiet member own)
    fun stop member sequence isDefault carried sweeps => ?_
  · constructor
    · rintro ledger later succeeded
      cases succeeded
    · rintro alone shared later _ succeeded
      cases succeeded
  · rcases straight with isStrict | straight
    · exact .upToFirst (fun _ _ holds => holds.length_reported isStrict) sweeps sequence
    · rw [straight stop member isDefault] at carried
      cases carried

/-- What goes through all stops, whatever it finds: it asks for no sequence, and stops at no bean for a
redefined default group. -/
structure Straight (stops : List (Except ValidationError Stop)) (groups : Groups) : Prop where
  plain : groups.sequences = []
  inherits : .defaultGroup ∈ groups.plain → ∀ stop, .ok stop ∈ stops →
    stop.metadata.groupSequence = none

/-- **A call is shadowed**, if it is strict or straight. -/
theorem call_shadowed (orderly : Orderly stops) {groups : Groups}
    (quiet : strict → setting.Quiet stops before within) (straight : strict ∨ Straight stops groups) :
    (setting.call stops groups).Shadowed (setting.Shadows stops strict before) within := by
  refine .andThen (Entry.Shadowed.closed.each fun group member => ?_)
    (Entry.Shadowed.closed.each fun sequence member => ?_)
  · refine pass_shadowed orderly quiet (straight.imp_right fun straight stop inside isDefault => ?_)
    exact straight.inherits (isDefault ▸ member) stop inside
  · rcases straight with isStrict | straight
    · exact .upToFirst (fun _ _ holds => holds.length_reported isStrict)
        (fun _ => pass_shadowed orderly quiet (.inl isStrict)) sequence
    · rw [straight.plain] at member
      cases member

theorem shadows_blank (settled : before.Settled setting stops) :
    setting.Shadows stops strict before .blank before where
  settled := settled
  claims := fun bean place claimed => by
    rw [Ledger.claimed_blank] at claimed
    cases claimed
  bounded := fun _ _ claimed => .inr claimed
  reported := fun _ => ⟨.inr, fun either => either.resolve_left List.not_mem_nil⟩
  inOrder := fun _ => rfl
  deeds := fun _ done => .inr done

/-- A step that is shadowed adds to a ledger what it does on a blank one. -/
theorem shadows_of_alone {entry : Entry Unit} {lone : Ledger} (settled : before.Settled setting stops)
    (shadowed : entry.Shadowed (setting.Shadows stops strict before)
      fun bean place => lone.claimed bean place = true)
    (alone : entry .blank = .ok () lone) :
    ∃ after, entry before = .ok () after ∧ setting.Shadows stops strict before lone after :=
  shadowed.follows .blank before lone (shadows_blank settled) alone fun _ _ claimed => claimed

/-- **Parts that do not hide violations from each other** report together what they report alone. -/
theorem each_call_shadowed (orderly : Orderly stops) {lone : Groups → Ledger} {parts : List Groups}
    (alone : ∀ part ∈ parts, setting.call stops part .blank = .ok () (lone part))
    (apart : parts.Pairwise fun earlier later => Straight stops later
      ∨ setting.Quiet stops (lone earlier) fun bean place => (lone later).claimed bean place = true)
    (settled : before.Settled setting stops)
    (free : ∀ part ∈ parts, Straight stops part
      ∨ setting.Quiet stops before fun bean place => (lone part).claimed bean place = true) :
    ∃ after, Entry.each (setting.call stops) parts before = .ok () after
      ∧ ∀ violation, violation ∈ after.reported
        ↔ violation ∈ before.reported ∨ ∃ part ∈ parts, violation ∈ (lone part).reported := by
  induction parts generalizing before with
  | nil => exact ⟨before, rfl, fun violation => by simp⟩
  | cons part rest ih =>
    obtain ⟨first, apart⟩ := List.pairwise_cons.mp apart
    have here := alone part List.mem_cons_self
    obtain ⟨strict, between, leads, shadows⟩ : ∃ strict between,
        setting.call stops part before = .ok () between
          ∧ setting.Shadows stops strict before (lone part) between := by
      -- A straight part may pass over violations, as it does not count them; any other part meets none.
      rcases free part List.mem_cons_self with straight | quiet
      · exact ⟨False, shadows_of_alone settled
          (call_shadowed orderly (fun never => never.elim) (.inr straight)) here⟩
      · exact ⟨True, shadows_of_alone settled
          (call_shadowed orderly (fun _ => quiet) (.inl trivial)) here⟩
    have freeRest : ∀ later ∈ rest, Straight stops later
        ∨ setting.Quiet stops between fun bean place => (lone later).claimed bean place = true := by
      intro later member
      rcases first later member, free later (List.mem_cons_of_mem _ member) with
        ⟨straight | quiet, straight | quietBefore⟩
      · exact .inl straight
      · exact .inl straight
      · exact .inl straight
      · refine .inr fun stop inside duty own within claimed => ?_
        exact (shadows.bounded _ _ claimed).elim (quiet stop inside duty own within)
          (quietBefore stop inside duty own within)
    obtain ⟨after, ends, reported⟩ := ih (fun later member =>
      alone later (List.mem_cons_of_mem _ member)) apart shadows.settled freeRest
    refine ⟨after, (Run.bind_of_ok leads).trans ends, fun violation => ?_⟩
    simp only [reported, shadows.reported, List.mem_cons, or_and_right, exists_or, exists_eq_left]
    rw [or_assoc, or_left_comm]

end Setting

end GraphValidation
