/-
**What several requests find together.**

A request that is made after others, on the ledger that these leave, goes at least as far as it goes
alone: a sequence stops only for a violation of a constraint that is new, and such a violation would
have stopped it alone.  So nothing that a request reports alone is missing when it is made with
others.

* `Setting.Covers` — a shared ledger holds what a ledger of its own holds.
* `Entry.Covered` — a step that goes at least as far on the shared ledger.
* `Setting.call_covered` — **calls are covered**.
* `Setting.covers_of_part` — **a call holds what its parts hold alone**.
-/
import GraphValidation.Proofs.Requests
import GraphValidation.Proofs.Settling

namespace GraphValidation

/-- A shared ledger has the claims and the violations of one that was kept alone. -/
structure Setting.Covers (setting : Setting) (stops : List (Except ValidationError Stop))
    (alone shared : Ledger) : Prop where
  settled : shared.Settled setting stops
  claims : ∀ bean place, alone.claimed bean place = true → shared.claimed bean place = true
  reported : ∀ violation ∈ alone.reported, violation ∈ shared.reported

/-- A step never takes back a violation; it goes at least as far on a ledger that covers another one,
and where it reports there, it reports on the other one too. -/
structure Entry.Covered (covers : Ledger → Ledger → Prop) (entry : Entry Unit) : Prop where
  lengthens : ∀ ledger later, entry ledger = .ok () later →
    ledger.reported.length ≤ later.reported.length
  onward : ∀ alone shared after, covers alone shared → entry shared = .ok () after →
    covers alone after
  follows : ∀ alone shared later after, covers alone shared → entry alone = .ok () later →
    entry shared = .ok () after → covers later after
      ∧ (shared.reported.length < after.reported.length →
        alone.reported.length < later.reported.length)

namespace Entry.Covered

variable {covers : Ledger → Ledger → Prop}

theorem nothing : Covered covers (Pure.pure ()) where
  lengthens := Lengthens.nothing
  onward := by
    rintro alone shared after holds succeeded
    cases succeeded
    exact holds
  follows := by
    rintro alone shared later after holds first second
    cases first
    cases second
    exact ⟨holds, fun longer => absurd longer (Nat.lt_irrefl _)⟩

theorem andThen {entry next : Entry Unit} (first : Covered covers entry)
    (second : Covered covers next) : Covered covers (do entry; next) where
  lengthens := Lengthens.andThen first.lengthens second.lengthens
  onward := by
    intro alone shared after holds succeeded
    obtain ⟨between, leads, ends⟩ := Entry.andThen_eq_ok succeeded
    exact second.onward alone between after (first.onward alone shared between holds leads) ends
  follows := by
    intro alone shared later after holds ofAlone ofShared
    obtain ⟨between, leads, ends⟩ := Entry.andThen_eq_ok ofAlone
    obtain ⟨middle, leadsShared, endsShared⟩ := Entry.andThen_eq_ok ofShared
    obtain ⟨holds, reports⟩ := first.follows alone shared between middle holds leads leadsShared
    obtain ⟨holds, reportsLater⟩ := second.follows between middle later after holds ends endsShared
    have longer := first.lengthens alone between leads
    have longest := second.lengthens between later ends
    refine ⟨holds, fun grown => ?_⟩
    by_cases early : shared.reported.length < middle.reported.length
    · have := reports early
      omega
    · have := reportsLater (by omega)
      omega

theorem closed : Entry.Closed (Covered covers) := ⟨nothing, andThen⟩

/-- Steps up to the first that reports go on at least as long on the covering ledger. -/
theorem upToFirst {step : TypeKey → Entry Unit} (steps : ∀ group, Covered covers (step group))
    (groups : List TypeKey) : Covered covers (Entry.upToFirst step groups) := by
  induction groups with
  | nil => exact nothing
  | cons group rest ih =>
    constructor
    · exact Lengthens.upToFirst (fun group => (steps group).lengthens) (group :: rest)
    · intro alone shared after holds succeeded
      obtain ⟨between, leads, ⟨-, rfl⟩ | ⟨-, ends⟩⟩ := Entry.upToFirst_eq_ok succeeded
      · exact (steps group).onward alone shared _ holds leads
      · exact ih.onward alone between after
          ((steps group).onward alone shared between holds leads) ends
    · intro alone shared later after holds ofAlone ofShared
      obtain ⟨between, leads, stops⟩ := Entry.upToFirst_eq_ok ofAlone
      obtain ⟨middle, leadsShared, stopsShared⟩ := Entry.upToFirst_eq_ok ofShared
      obtain ⟨covered, reports⟩ :=
        (steps group).follows alone shared between middle holds leads leadsShared
      have longer := (steps group).lengthens shared middle leadsShared
      -- Where the step ends alone, the shared ledger may go on.  Where it goes on alone, it has reported
      -- nothing, so it has reported nothing on the shared ledger either, and both go on.
      rcases stops with ⟨stopped, rfl⟩ | ⟨unheard, ends⟩
      · refine ⟨?_, fun _ => stopped⟩
        rcases stopsShared with ⟨-, rfl⟩ | ⟨-, endsShared⟩
        · exact covered
        · exact ih.onward _ middle after covered endsShared
      · rcases stopsShared with ⟨stoppedShared, rfl⟩ | ⟨-, endsShared⟩
        · exact absurd (reports stoppedShared) unheard
        · obtain ⟨covered, reportsLater⟩ :=
            ih.follows between middle later after covered ends endsShared
          have longerAlone := (steps group).lengthens alone between leads
          refine ⟨covered, fun grown => ?_⟩
          have := reportsLater (by omega)
          omega

end Entry.Covered

namespace Setting

variable {setting : Setting} {stops : List (Except ValidationError Stop)} {group : TypeKey}

/-- **Examining a duty is covered**: it is evaluated on both ledgers, or was on the covering one. -/
theorem examine_covered (orderly : Orderly stops) {stop : Stop} (member : .ok stop ∈ stops)
    {duty : Duty} (own : duty ∈ stop.metadata.duties) :
    (setting.examine group stop duty).Covered (setting.Covers stops) := by
  constructor
  · exact Entry.Lengthens.examine setting group stop duty
  · intro alone shared after holds succeeded
    rcases examine_eq_ok succeeded with ⟨rfl, -⟩ | ⟨rfl, -, -, failure⟩
    · exact holds
    · refine ⟨holds.settled.examined orderly member own failure, fun bean place claimed => ?_,
        fun violation found => ?_⟩
      · exact Ledger.claimed_claiming_of_claimed (holds.claims bean place claimed)
      · rw [reported_examined]
        exact List.mem_append_right _ (holds.reported violation found)
  · intro alone shared later after holds ofAlone ofShared
    rcases examine_eq_ok ofAlone with ⟨rfl, passed⟩ | ⟨rfl, belongs, unclaimed, failure⟩
    · have same : after = shared := by
        rcases examine_eq_ok ofShared with ⟨same, -⟩ | ⟨-, belongs, unclaimed, -⟩
        · exact same
        · rcases passed with other | claimed
          · rw [other] at belongs
            cases belongs
          · rw [holds.claims _ _ claimed] at unclaimed
            cases unclaimed
      rw [same]
      exact ⟨holds, fun longer => absurd longer (Nat.lt_irrefl _)⟩
    -- Evaluated alone: if the shared ledger passes over the duty, it has been evaluated there before,
    -- and what it finds has been reported.
    · rcases examine_eq_ok ofShared with ⟨rfl, passed⟩ | ⟨rfl, -, -, -⟩
      · have claimed : after.claimed stop.bean duty.place = true := by
          refine passed.resolve_left ?_
          rw [belongs]
          exact fun other => Bool.noConfusion other
        have settled := (holds.settled stop member duty own claimed).2
        refine ⟨⟨holds.settled, fun bean place now => ?_, fun violation found => ?_⟩,
          fun longer => absurd longer (Nat.lt_irrefl _)⟩
        · rcases Ledger.of_claimed_claiming now with early | ⟨rfl, id, isBean, isStop⟩
          · exact holds.claims bean place early
          · exact Ledger.claimed_of_same isBean isStop claimed
        · rw [reported_examined] at found
          rcases List.mem_append.mp found with new | early
          · exact settled violation (List.mem_reverse.mp new)
          · exact holds.reported violation early
      · refine ⟨⟨holds.settled.examined orderly member own failure, fun bean place now => ?_,
          fun violation found => ?_⟩, fun longer => ?_⟩
        · rcases Ledger.of_claimed_claiming now with early | ⟨rfl, id, isBean, isStop⟩
          · exact Ledger.claimed_claiming_of_claimed (holds.claims bean place early)
          · exact Ledger.claimed_claiming_self isBean isStop
        · rw [reported_examined] at found ⊢
          rcases List.mem_append.mp found with new | early
          · exact List.mem_append_left _ new
          · exact List.mem_append_right _ (holds.reported violation early)
        · rw [reported_examined, List.length_append] at longer ⊢
          omega

theorem arrive_covered (stop : Stop) : (Entry.arrive stop).Covered (setting.Covers stops) := by
  constructor
  · rintro ledger later succeeded
    cases succeeded
    exact Nat.le_refl _
  · rintro alone shared after holds succeeded
    cases succeeded
    exact ⟨holds.settled, holds.claims, holds.reported⟩
  · rintro alone shared later after holds first second
    cases first
    cases second
    exact ⟨⟨holds.settled, holds.claims, holds.reported⟩,
      fun longer => absurd longer (Nat.lt_irrefl _)⟩

theorem pass_covered (orderly : Orderly stops) (group : TypeKey) :
    (setting.pass stops group).Covered (setting.Covers stops) := by
  refine pass_of_duties Entry.Covered.closed (fun error => ?_) (fun stop _ => arrive_covered stop)
    (fun stop member group duty own => examine_covered orderly member own)
    fun _ _ sequence _ _ sweeps => .upToFirst sweeps sequence
  constructor
  · rintro ledger later succeeded
    cases succeeded
  · rintro alone shared after _ succeeded
    cases succeeded
  · rintro alone shared later after _ succeeded
    cases succeeded

theorem call_covered (orderly : Orderly stops) (groups : Groups) :
    (setting.call stops groups).Covered (setting.Covers stops) :=
  .andThen (Entry.Covered.closed.each fun group _ => pass_covered orderly group)
    (Entry.Covered.closed.each fun sequence _ => .upToFirst (pass_covered orderly) sequence)

theorem covers_blank {shared : Ledger} (settled : shared.Settled setting stops) :
    setting.Covers stops .blank shared where
  settled := settled
  claims := fun bean place claimed => by
    rw [Ledger.claimed_blank] at claimed
    cases claimed
  reported := fun _ found => absurd found List.not_mem_nil

/-- **Parts that are done together hold what each of them holds alone.** -/
theorem covers_of_part (orderly : Orderly stops) {parts : List Groups} {part : Groups}
    {lone shared later : Ledger} (settled : shared.Settled setting stops) (member : part ∈ parts)
    (alone : setting.call stops part .blank = .ok () lone)
    (together : Entry.each (setting.call stops) parts shared = .ok () later) :
    setting.Covers stops lone later := by
  induction parts generalizing shared with
  | nil => cases member
  | cons first rest ih =>
    obtain ⟨between, leads, ends⟩ := Entry.andThen_eq_ok together
    have covered : (setting.call stops first).Covered (setting.Covers stops) :=
      call_covered orderly first
    cases member with
    | head =>
      have covers := (covered.follows .blank shared lone between (covers_blank settled) alone leads).1
      exact (Entry.Covered.closed.each fun part _ => call_covered orderly part).onward lone between later
        covers ends
    | tail _ member =>
      have covers := covered.onward .blank shared between (covers_blank settled) leads
      exact ih covers.settled member ends

end Setting

end GraphValidation
