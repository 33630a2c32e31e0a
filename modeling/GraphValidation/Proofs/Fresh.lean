/-
**What a sweep over duties does.**

A sweep evaluates the duties of a group that have not been evaluated on the bean before: the fresh
ones.  What it reports and what it claims is known from these, whatever the ledger holds.

* `Setting.fresh` — the duties of a group that are new to a ledger.
* `Setting.Swept` — what a ledger shows after a sweep.
* `Setting.swept_of_ok` — **a sweep that succeeds evaluates the fresh duties**.
* `Setting.Swept.reports_iff` — it reports if one of them is violated.
-/
import GraphValidation.Proofs.Sweeps

namespace GraphValidation

namespace Setting

variable {setting : Setting} {group : TypeKey} {stop : Stop} {ledger later : Ledger}

/-- The duties of a group that have not been evaluated on the bean. -/
def fresh (setting : Setting) (group : TypeKey) (stop : Stop) (ledger : Ledger)
    (duties : List Duty) : List Duty :=
  duties.filter fun duty =>
    duty.belongs setting.environment.types group && !ledger.claimed stop.bean duty.place

/-- Whether a duty finds violations at a stop. -/
def Violated (setting : Setting) (stop : Stop) (duty : Duty) : Prop :=
  (setting.findings stop duty).violations ≠ []

theorem mem_fresh {duties : List Duty} {duty : Duty} :
    duty ∈ setting.fresh group stop ledger duties ↔ duty ∈ duties
      ∧ duty.belongs setting.environment.types group = true
      ∧ ledger.claimed stop.bean duty.place = false := by
  simp [fresh, List.mem_filter]

/-- What a ledger shows after a sweep over duties. -/
structure Swept (setting : Setting) (group : TypeKey) (stop : Stop) (duties : List Duty)
    (ledger later : Ledger) : Prop where
  flawless : ∀ duty ∈ setting.fresh group stop ledger duties,
    (setting.findings stop duty).failure = none
  reported : later.reported
    = ((setting.fresh group stop ledger duties).flatMap
        fun duty => (setting.findings stop duty).violations).reverse ++ ledger.reported
  deeds : later.deeds
    = ((setting.fresh group stop ledger duties).flatMap (setting.evaluations group stop)).reverse
      ++ ledger.deeds
  claims : ∀ place, later.claimed stop.bean place = true ↔ ledger.claimed stop.bean place = true
    ∨ stop.bean.bean?.isSome ∧ ∃ duty ∈ duties,
      duty.belongs setting.environment.types group = true ∧ duty.place = place
  spares : SparesOthers stop.bean ledger later

/-- What one duty claims is not what duties at other places ask for. -/
theorem fresh_examined {duty : Duty} {rest : List Duty}
    (apart : ∀ other ∈ rest, other.place ≠ duty.place) :
    setting.fresh group stop (setting.examined group stop duty ledger) rest
      = setting.fresh group stop ledger rest := by
  refine List.filter_congr fun other member => ?_
  rw [Setting.examined, Ledger.claimed_noting, Ledger.claimed_claiming_of_ne (apart other member)]

theorem claimed_examined {duty : Duty} (place : NodePlace) :
    (setting.examined group stop duty ledger).claimed stop.bean place = true
      ↔ ledger.claimed stop.bean place = true
        ∨ stop.bean.bean?.isSome ∧ duty.place = place := by
  rw [Setting.examined, Ledger.claimed_noting]
  cases isBean : stop.bean.bean? with
  | none => simp [Ledger.claimed, isBean]
  | some ref =>
    simp only [Ledger.claimed, Ledger.claiming, isBean, List.contains_cons, Bool.or_eq_true,
      beq_iff_eq, Prod.mk.injEq, true_and, Option.isSome_some]
    exact or_comm.trans (or_congr_right eq_comm)

/-- **A sweep that succeeds evaluates the fresh duties.** -/
theorem swept_of_ok {duties : List Duty} (nodup : (duties.map (·.place)).Nodup)
    (succeeded : Entry.each (setting.examine group stop) duties ledger = .ok () later) :
    setting.Swept group stop duties ledger later := by
  induction duties generalizing ledger with
  | nil =>
    cases succeeded
    exact ⟨nofun, rfl, rfl, fun place => by simp, fun _ _ _ => rfl⟩
  | cons duty rest ih =>
    obtain ⟨apart, nodup⟩ := List.nodup_cons.mp nodup
    obtain ⟨between, examined, succeeded⟩ := Entry.andThen_eq_ok succeeded
    have swept := ih nodup succeeded
    rcases examine_eq_ok examined with ⟨rfl, passed⟩ | ⟨rfl, belongs, unclaimed, failure⟩
    -- The duty is passed over: it belongs to no group that is swept, or it is known.
    · have stale : setting.fresh group stop between (duty :: rest)
          = setting.fresh group stop between rest := by
        refine List.filter_cons_of_neg ?_
        rcases passed with other | claimed
        · simp [other]
        · simp [claimed]
      refine ⟨stale ▸ swept.flawless, stale ▸ swept.reported, stale ▸ swept.deeds,
        fun place => (swept.claims place).trans ?_, swept.spares⟩
      rcases passed with other | claimed
      · simp [other]
      · refine ⟨Or.imp_right (And.imp_right ?_), ?_⟩
        · rintro ⟨another, member, belongs, same⟩
          exact ⟨another, List.mem_cons_of_mem _ member, belongs, same⟩
        · rintro (before | ⟨isBean, another, member, belongs, same⟩)
          · exact .inl before
          · rcases List.mem_cons.mp member with rfl | member
            · exact .inl (same ▸ claimed)
            · exact .inr ⟨isBean, another, member, belongs, same⟩
    · have isFresh : setting.fresh group stop ledger (duty :: rest)
          = duty :: setting.fresh group stop ledger rest :=
        List.filter_cons_of_pos (by simp [belongs, unclaimed])
      have same : setting.fresh group stop (setting.examined group stop duty ledger) rest
          = setting.fresh group stop ledger rest :=
        fresh_examined fun other member equal => apart (List.mem_map.mpr ⟨other, member, equal⟩)
      refine ⟨fun other member => ?_, ?_, ?_, fun place => ?_, fun other elsewhere different => ?_⟩
      · rw [isFresh] at member
        rcases List.mem_cons.mp member with rfl | member
        · exact failure
        · exact swept.flawless other (same ▸ member)
      · rw [swept.reported, same, isFresh, reported_examined]
        simp
      · rw [swept.deeds, same, isFresh, deeds_examined]
        simp [evaluations, belongs]
      · rw [swept.claims, claimed_examined]
        simp only [List.mem_cons, or_and_right, exists_or, exists_eq_left, belongs, true_and, or_assoc,
          ← and_or_left]
      · rw [swept.spares other elsewhere different, Setting.examined, Ledger.claimed_noting,
          Ledger.claimed_claiming_of_apart different]

namespace Swept

variable {duties : List Duty}

/-- A sweep reports if one of the fresh duties is violated. -/
theorem reports_iff (swept : setting.Swept group stop duties ledger later) :
    ledger.reported.length < later.reported.length
      ↔ ∃ duty ∈ setting.fresh group stop ledger duties, setting.Violated stop duty := by
  rw [swept.reported, List.length_append, List.length_reverse]
  have positive : ∀ found : List Violation, ledger.reported.length
      < found.length + ledger.reported.length ↔ found ≠ [] := by
    intro found
    rw [← List.length_pos_iff]
    omega
  rw [positive]
  simp [Violated]

end Swept

end Setting

end GraphValidation
