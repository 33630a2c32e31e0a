/-
**What a ledger accounts for, whatever the resolver allows.**

A constraint that may not read its property is remembered like any other one, and evaluates nothing.
So claims do not tell what was evaluated; but what was evaluated has been claimed, and what was
reported was found by a constraint that was evaluated.

* `Ledger.Accounts` — evaluations are claimed, and violations come from evaluations.
* `Setting.call_accounts` — **calls keep such accounts**.
-/
import GraphValidation.Proofs.Location
import GraphValidation.Proofs.Tracing

namespace GraphValidation

namespace Setting

variable {setting : Setting} {stop : Stop} {duty : Duty}

/-- A violation that a duty finds at a stop is one of its bean. -/
theorem leafBean_of_findings {violation : Violation}
    (found : violation ∈ (setting.findings stop duty).violations) :
    violation.leafBean = stop.bean.bean? := by
  obtain ⟨value, reports, -⟩ := reports_of_findings found
  obtain ⟨part, -, -, leafBean, -⟩ := reports.points
  exact leafBean

end Setting

/-- What was evaluated on a bean has been claimed, and what was reported was found by a constraint
that was evaluated. -/
structure Ledger.Accounts (setting : Setting) (stops : List (Except ValidationError Stop))
    (ledger : Ledger) : Prop where
  claims : ∀ stop, .ok stop ∈ stops → stop.bean.bean?.isSome → ∀ duty ∈ stop.metadata.duties,
    setting.Evaluated ledger.deeds stop duty → ledger.claimed stop.bean duty.place = true
  found : ledger.Sourced setting stops

namespace Ledger

variable {setting : Setting} {stops : List (Except ValidationError Stop)} {ledger : Ledger}
  {stop : Stop} {duty : Duty} {group : TypeKey}

theorem accounts_blank : Ledger.blank.Accounts setting stops where
  claims := fun _ _ _ _ _ evaluated => by
    obtain ⟨_, done⟩ := evaluated
    cases done
  found := sourced_blank

theorem Accounts.arriving (accounts : ledger.Accounts setting stops) (arrived : Stop) :
    Accounts setting stops
      { ledger with
        deeds := .entered arrived.bean arrived.metadata arrived.path :: ledger.deeds } where
  claims := by
    rintro stop member isBean duty own ⟨group, done⟩
    refine accounts.claims stop member isBean duty own ⟨group, ?_⟩
    cases done with
    | tail _ done => exact done
  found := accounts.found.mono rfl fun _ => List.mem_cons_of_mem _

/-- **Examining a duty keeps accounts**, also where it fails. -/
theorem Accounts.examined (orderly : Setting.Orderly stops) (typed : Setting.Typed stops)
    (accounts : ledger.Accounts setting stops) (member : .ok stop ∈ stops)
    (own : duty ∈ stop.metadata.duties) :
    (setting.examined group stop duty ledger).Accounts setting stops where
  claims := by
    rintro other isOther isBean another others ⟨within, done⟩
    rw [Setting.deeds_examined] at done
    rcases List.mem_append.mp done with new | old
    · obtain ⟨rfl, -, beans, -⟩ := Setting.eq_of_evaluated orderly typed isOther member others own
        (List.mem_reverse.mp new)
      obtain ⟨ref, refers⟩ := Option.isSome_iff_exists.mp isBean
      have known : other.bean.bean?.map (·.id) = some ref.id := by rw [refers]; rfl
      exact claimed_claiming_self known (beans ▸ known)
    · exact claimed_claiming_of_claimed
        (accounts.claims other isOther isBean another others ⟨within, old⟩)
  found := accounts.found.examined member own

end Ledger

/-- **Calls keep accounts.** -/
theorem Setting.call_accounts {setting : Setting} {stops : List (Except ValidationError Stop)}
    (orderly : Setting.Orderly stops) (typed : Setting.Typed stops) {groups : Groups}
    {ledger : Ledger} (succeeded : setting.call stops groups .blank = .ok () ledger) :
    ledger.Accounts setting stops := by
  have keeps : (setting.call stops groups).Keeps (Ledger.Accounts setting stops) fun _ => True := by
    refine call_keeps groups (fun _ _ => trivial) (fun stop _ ledger holds => holds.arriving stop) ?_
    intro stop member group duty own
    exact examine_keeps (fun ledger holds _ _ _ => holds.examined orderly typed member own)
      fun _ _ => trivial
  exact keeps.of_ok Ledger.accounts_blank succeeded

end GraphValidation
