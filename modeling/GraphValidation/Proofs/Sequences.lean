/-
**A sequence stops at its first group with violations.**

A pass in a sequence passes over the constraints that the passes before it have evaluated.  Those have
found nothing, or the sequence would have ended; so the pass reports what it would report alone, and
the sequence reports what the first of its groups reports that reports anything.

* `Setting.upToFirst_alone` — the run of a sequence from the runs of its groups.
* `validate_sequence` — **a sequence shows the violations of its first group that has any**.
-/
import GraphValidation.Proofs.Requests
import GraphValidation.Proofs.Shadowing

namespace GraphValidation

namespace Setting

variable {setting : Setting} {stops : List (Except ValidationError Stop)}

/-- **The run of a sequence from the runs of its groups**, each on a ledger of its own: it ends with
the first of them that reports, and has done no more than these. -/
theorem upToFirst_alone (orderly : Orderly stops) {groups : List TypeKey}
    {heard : TypeKey → List Violation} {done : TypeKey → List Event}
    (alone : ∀ group ∈ groups, ∃ ledger, setting.pass stops group .blank = .ok () ledger
      ∧ heard group = ledger.reported.reverse ∧ ∀ deed ∈ ledger.deeds, deed ∈ done group)
    {shared : Ledger} (settled : shared.Settled setting stops) (nothing : shared.reported = []) :
    ∃ later, Entry.upToFirst (setting.pass stops) groups shared = .ok () later
      ∧ later.reported.reverse
        = ((groups.find? fun group => !(heard group).isEmpty).map heard).getD []
      ∧ ∀ deed ∈ later.deeds, deed ∈ shared.deeds ∨ ∃ group ∈ groups.take
          (groups.findIdx (fun group => !(heard group).isEmpty) + 1), deed ∈ done group := by
  induction groups generalizing shared with
  | nil =>
    refine ⟨shared, rfl, ?_, fun deed made => .inl made⟩
    rw [nothing]
    rfl
  | cons group rest ih =>
    obtain ⟨ledger, ran, hears, does⟩ := alone group List.mem_cons_self
    -- What has been evaluated before has found nothing, or it would have been reported.
    have quiet : setting.Quiet stops shared fun bean place => ledger.claimed bean place = true := by
      intro stop member duty own _ claimed
      have reported := (settled stop member duty own claimed).2
      rw [nothing] at reported
      exact List.eq_nil_iff_forall_not_mem.mpr fun violation found =>
        absurd (reported violation found) List.not_mem_nil
    have shadowed : (setting.pass stops group).Shadowed (setting.Shadows stops True shared)
        fun bean place => ledger.claimed bean place = true :=
      pass_shadowed orderly (fun _ => quiet) (.inl trivial)
    obtain ⟨later, passed, shadows⟩ := shadows_of_alone settled shadowed ran
    have reported : later.reported = ledger.reported := by
      rw [shadows.inOrder trivial, nothing, List.append_nil]
    rw [Entry.upToFirst_cons, passed]
    simp only [nothing, reported, List.length_nil, List.find?_cons, List.findIdx_cons]
    cases silent : ledger.reported with
    | nil =>
      have unheard : heard group = [] := by
        rw [hears, silent]
        rfl
      obtain ⟨last, ends, reports, deeds⟩ := ih (fun other member =>
        alone other (List.mem_cons_of_mem _ member)) shadows.settled (reported.trans silent)
      refine ⟨last, by simpa using ends, by simpa [unheard] using reports, fun deed made => ?_⟩
      rcases deeds deed made with before | ⟨other, member, made⟩
      · rcases shadows.deeds deed before with here | before
        · exact .inr ⟨group, by simp, does deed here⟩
        · exact .inl before
      · exact .inr ⟨other, by simpa [unheard] using .inr member, made⟩
    | cons violation others =>
      have isHeard : heard group = (violation :: others).reverse := by rw [hears, silent]
      have reports : (heard group).isEmpty = false := by simp [isHeard]
      refine ⟨later, by simp, ?_, fun deed made => ?_⟩
      · rw [reports, reported]
        exact hears.symm
      · rcases shadows.deeds deed made with here | before
        · exact .inr ⟨group, by simp, does deed here⟩
        · exact .inl before

end Setting

/-! ### Validations for a sequence -/

section Planned

variable {validator : Validator} {heap : Heap} {root : Value} {requested : List TypeKey}
  {plan : Plan}

/-- What a validation for one plain group has done is a pass on a blank ledger. -/
theorem pass_of_validate (off : validator.mapsLikeBeans = false) {group : TypeKey}
    (planned : validator.plan heap root requested = .ok plan) (plain : plan.groups = ⟨[group], []⟩)
    (succeeded : (validator.validate heap root requested).failure = none) :
    ∃ ledger, plan.setting.pass plan.stops group .blank = .ok () ledger
      ∧ (validator.validate heap root requested).heard = ledger.reported.reverse
      ∧ ∀ deed ∈ ledger.deeds, deed ∈ (validator.validate heap root requested).journal := by
  obtain ⟨ledger, ran, heard, journal⟩ :=
    (validate_shows_on_beans off planned).of_success succeeded
  rw [Plan.run, plain, Setting.call_of_plain] at ran
  refine ⟨ledger, ran, heard, fun deed done => ?_⟩
  have inside : deed ∈ ledger.deeds.reverse := List.mem_reverse.mpr done
  rw [← journal] at inside
  exact (List.mem_filter.mp inside).1

/-- **A sequence shows the violations of its first group that has any.**  Where each of the groups
that it stands for can be validated alone, so can the sequence, provided that it stands for some
group at all; it does no more than the groups up to that one do. -/
theorem validate_sequence (off : validator.mapsLikeBeans = false) {sequence : TypeKey}
    {members groups : List TypeKey} (named : sequence ≠ .defaultGroup)
    (carries : GroupRequest.sequenceOf validator.types validator.cache.configuration.groupSequence
      sequence = .ok (some members))
    (expands : GroupRequest.expand validator.types validator.cache.configuration.groupSequence
      (validator.types.infos.length + 1) [] sequence = .ok groups)
    (alone : ∀ group ∈ groups, (validator.validate heap root [group]).failure = none) :
    (groups ≠ [] → (validator.validate heap root [sequence]).failure = none)
      ∧ (validator.validate heap root [sequence]).heard
        = ((groups.find? fun group => !(validator.validate heap root [group]).heard.isEmpty).map
          fun group => (validator.validate heap root [group]).heard).getD []
      ∧ ∀ deed ∈ (validator.validate heap root [sequence]).journal, deed.isDeed = true →
        ∃ group ∈ groups.take
            (groups.findIdx (fun group => !(validator.validate heap root [group]).heard.isEmpty) + 1),
          deed ∈ (validator.validate heap root [group]).journal := by
  have resolved := groups?_of_sequence named carries expands
  cases planned : validator.plan heap root [sequence] with
  | error error =>
    obtain ⟨-, heard, journal⟩ := validate_of_unplanned planned
    cases groups with
    | nil =>
      refine ⟨fun some => absurd rfl some, heard, fun deed done => ?_⟩
      rw [journal] at done
      cases done
    | cons group rest =>
      obtain ⟨plan, known⟩ := planned_of_success (alone group List.mem_cons_self)
      rw [plan_of_groups? known resolved] at planned
      cases planned
  | ok plan =>
    have isSequence : plan.groups = ⟨[], [groups]⟩ :=
      Except.ok.inj ((groups?_of_planned planned).symm.trans resolved)
    have runs : ∀ group ∈ groups, ∃ ledger,
        plan.setting.pass plan.stops group .blank = .ok () ledger
          ∧ (validator.validate heap root [group]).heard = ledger.reported.reverse
          ∧ ∀ deed ∈ ledger.deeds, deed ∈ (validator.validate heap root [group]).journal := by
      intro group member
      obtain ⟨own, found⟩ := groups?_of_success (alone group member)
      have plain := groups?_of_plain (.inr (GroupRequest.expand_plain expands group member)) found
      rw [plain] at found
      have ran := pass_of_validate off (plan_of_groups? planned found) rfl (alone group member)
      exact ran
    obtain ⟨later, ran, reports, deeds⟩ :=
      Setting.upToFirst_alone (stops_orderly planned) runs Ledger.settled_blank rfl
    have shows := validate_shows_on_beans off planned
    rw [Plan.run, isSequence, Setting.call_of_sequence, ran] at shows
    refine ⟨fun _ => shows.1, shows.2.1.trans reports, fun deed done isDeed => ?_⟩
    have inside : deed ∈ later.deeds.reverse := by
      rw [← shows.2.2]
      exact List.mem_filter.mpr ⟨done, isDeed⟩
    exact (deeds deed (List.mem_reverse.mp inside)).resolve_left List.not_mem_nil

end Planned

/-- In a ring of nodes without names, the sequence of both groups shows the violations of the first
one. -/
theorem validate_sequence_ring :
    let outcome := fun group =>
      Ring.validator.validate (Ring.heap .null .null) (.bean Ring.first) [group]
    (outcome Ring.ordered).failure = none
      ∧ (outcome Ring.ordered).heard = (outcome Ring.basic).heard
      ∧ (outcome Ring.basic).heard.length = 2 := by
  have alone : ∀ group ∈ [Ring.basic, Ring.extra],
      (Ring.validator.validate (Ring.heap .null .null) (.bean Ring.first) [group]).failure = none := by
    intro group member
    cases member with
    | head => exact Option.isNone_iff_eq_none.mp (by decide +kernel)
    | tail _ later =>
      cases List.mem_singleton.mp later
      exact Option.isNone_iff_eq_none.mp (by decide +kernel)
  have both : (Ring.validator.validate (Ring.heap .null .null) (.bean Ring.first)
      [Ring.basic]).heard.length = 2 := by decide +kernel
  have named : Ring.ordered ≠ .defaultGroup := by decide
  have expands : GroupRequest.expand Ring.validator.types
      Ring.validator.cache.configuration.groupSequence (Ring.validator.types.infos.length + 1) []
      Ring.ordered = .ok [Ring.basic, Ring.extra] := eq_ok_of_toOption (by decide +kernel)
  obtain ⟨succeeds, heard, -⟩ := validate_sequence rfl named rfl expands alone
  refine ⟨succeeds nofun, ?_, both⟩
  have some : (Ring.validator.validate (Ring.heap .null .null) (.bean Ring.first)
      [Ring.basic]).heard.isEmpty = false := by
    rw [List.isEmpty_eq_false_iff_exists_mem]
    exact ⟨_, List.getElem_mem (by rw [both]; exact Nat.zero_lt_two)⟩
  rw [heard, List.find?_cons, some]
  rfl

end GraphValidation
