/-
**What requests have to do with each other.**

The groups of one request are validated on one ledger.  So a sequence passes over the violations that
other groups have reported, and may go on where it would stop alone: a request shows at least what its
groups show alone, and it shows more exactly where it evaluates something that they do not.

* `Validator.HeardAlone` — what groups show alone.
* `Validator.Unshared` — a group that finds no violation where others look as well.
* `validate_together` — **what a request shows**, compared with what its groups show alone.
* `validate_together_hides` — a request that shows more.
-/
import GraphValidation.Proofs.Covering
import GraphValidation.Proofs.Shadowing
import GraphValidation.Proofs.Tracing

namespace GraphValidation

namespace Validator

variable (validator : Validator) (heap : Heap) (root : Value) (requested : List TypeKey)

/-- A violation is shown by one of some groups alone. -/
def HeardAlone (violation : Violation) : Prop :=
  ∃ group ∈ requested, violation ∈ (validator.validate heap root [group]).heard

/-- A constraint is evaluated at a stop for one of some groups alone. -/
def EvaluatedAlone (setting : Setting) (stop : Stop) (duty : Duty) : Prop :=
  ∃ group ∈ requested,
    setting.Evaluated (validator.validate heap root [group]).journal stop duty

/-- No constraint that a group finds violated is evaluated for another one as well. -/
def Unshared (plan : Plan) (group : TypeKey) : Prop :=
  ∀ other ∈ requested, other ≠ group → ∀ stop, .ok stop ∈ plan.stops →
    ∀ duty ∈ stop.metadata.duties,
      plan.setting.Evaluated (validator.validate heap root [group]).journal stop duty →
      plan.setting.Evaluated (validator.validate heap root [other]).journal stop duty →
        (plan.setting.findings stop duty).violations = []

/-- A group carries no sequence, and no bean redefines it. -/
def Straight (plan : Plan) (group : TypeKey) : Prop :=
  ∀ part, validator.groups? [group] = .ok part → Setting.Straight plan.stops part

end Validator

section Planned

variable {validator : Validator} {heap : Heap} {root : Value} {requested other : List TypeKey}
  {plan : Plan} {groups : Groups}

/-! ### Requests on one plan -/

theorem validate_shows_call (allowing : validator.resolver = .default)
    (planned : validator.plan heap root requested = .ok plan)
    (resolved : validator.groups? other = .ok groups) :
    (validator.validate heap root other).Shows
      (plan.setting.call plan.stops groups .blank) :=
  validate_shows_by_default allowing (plan_of_groups? planned resolved)

/-- **A validation that succeeds shows a traced ledger.** -/
theorem traced_of_success (allowing : validator.resolver = .default)
    (planned : validator.plan heap root requested = .ok plan)
    (resolved : validator.groups? other = .ok groups)
    (succeeded : (validator.validate heap root other).failure = none) :
    ∃ ledger, plan.setting.call plan.stops groups .blank = .ok () ledger
      ∧ ledger.Traced plan.setting plan.stops
      ∧ (∀ violation, violation ∈ (validator.validate heap root other).heard
        ↔ violation ∈ ledger.reported)
      ∧ ∀ stop duty, plan.setting.Evaluated (validator.validate heap root other).journal stop duty
        ↔ plan.setting.Evaluated ledger.deeds stop duty := by
  obtain ⟨ledger, ran, heard, journal⟩ :=
    (validate_shows_call allowing planned resolved).of_success succeeded
  have resolver := resolver_of_planned allowing planned
  have typed : Setting.Typed plan.stops :=
    fun stop isStop other isOther => metadata_eq_of_type planned isStop isOther
  exact ⟨ledger, ran, Setting.call_traced resolver (stops_orderly planned) typed ran,
    fun violation => by rw [heard, List.mem_reverse], fun stop duty => Setting.evaluated_iff journal⟩

/-- What groups ask for alone, they ask for together. -/
theorem planned_of_alone (some : requested ≠ [])
    (alone : ∀ group ∈ requested, (validator.validate heap root [group]).failure = none) :
    ∃ plan, validator.plan heap root requested = .ok plan ∧ plan.groups.parts.Nodup
      ∧ ∀ part, part ∈ plan.groups.parts
        ↔ ∃ group ∈ requested, validator.groups? [group] = .ok part := by
  obtain ⟨groups, resolved, nodup, parts⟩ :=
    groups?_parts some fun group member => groups?_of_success (alone group member)
  obtain ⟨group, member⟩ := List.exists_mem_of_ne_nil requested some
  obtain ⟨plan, planned⟩ := planned_of_success (alone group member)
  exact ⟨{ plan with groups }, plan_of_groups? planned resolved, nodup, parts⟩

/-! ### What a request shows -/

section Parts

variable (allowing : validator.resolver = .default)
  (planned : validator.plan heap root requested = .ok plan)
  (alone : ∀ group ∈ requested, (validator.validate heap root [group]).failure = none)

include allowing planned alone

/-- **A request shows more than its groups alone exactly where it evaluates more**, and finds
something there. -/
theorem heardAlone_iff (succeeded : (validator.validate heap root requested).failure = none) :
    (∀ violation ∈ (validator.validate heap root requested).heard,
        validator.HeardAlone heap root requested violation)
      ↔ ∀ stop, .ok stop ∈ plan.stops → ∀ duty ∈ stop.metadata.duties,
        plan.setting.Evaluated (validator.validate heap root requested).journal stop duty →
          validator.EvaluatedAlone heap root requested plan.setting stop duty
            ∨ ∀ violation ∈ (plan.setting.findings stop duty).violations,
              validator.HeardAlone heap root requested violation := by
  obtain ⟨later, -, traced, reported, evaluated⟩ :=
    traced_of_success allowing planned (groups?_of_planned planned) succeeded
  constructor
  · intro heardAlone stop member duty own done
    refine .inr fun violation found => heardAlone violation ?_
    rw [reported]
    exact traced.told stop member duty own ((evaluated stop duty).mp done) violation found
  · intro within violation heard
    obtain ⟨stop, member, duty, own, done, found⟩ :=
      traced.found violation ((reported violation).mp heard)
    rcases within stop member duty own ((evaluated stop duty).mpr done) with
      ⟨group, isRequested, doneAlone⟩ | heardAlone
    · obtain ⟨part, resolved⟩ := groups?_of_success (alone group isRequested)
      obtain ⟨lone, -, tracedAlone, reportedAlone, evaluatedAlone⟩ :=
        traced_of_success allowing planned resolved (alone group isRequested)
      refine ⟨group, isRequested, (reportedAlone violation).mpr ?_⟩
      exact tracedAlone.told stop member duty own ((evaluatedAlone stop duty).mp doneAlone) violation
        found
    · exact heardAlone violation found

variable (parts : ∀ part, part ∈ plan.groups.parts
    ↔ ∃ group ∈ requested, validator.groups? [group] = .ok part)

include parts

/-- **A request shows what its groups show alone.** -/
theorem heard_of_heardAlone (succeeded : (validator.validate heap root requested).failure = none)
    {violation : Violation} (heardAlone : validator.HeardAlone heap root requested violation) :
    violation ∈ (validator.validate heap root requested).heard := by
  obtain ⟨group, member, heard⟩ := heardAlone
  obtain ⟨part, resolved⟩ := groups?_of_success (alone group member)
  obtain ⟨lone, ran, -, reported, -⟩ :=
    traced_of_success allowing planned resolved (alone group member)
  obtain ⟨later, together, -, reportedAll, -⟩ :=
    traced_of_success allowing planned (groups?_of_planned planned) succeeded
  rw [Setting.call_eq_each] at together
  have covers := Setting.covers_of_part (stops_orderly planned) Ledger.settled_blank
    ((parts part).mpr ⟨group, member, resolved⟩) ran together
  rw [reportedAll]
  exact covers.reported violation ((reported violation).mp heard)

/-- **Groups that share no violation are independent**, and so are groups that stop nowhere. -/
theorem heard_iff_heardAlone (nodup : plan.groups.parts.Nodup)
    (free : ∀ group ∈ requested, validator.Straight plan group
      ∨ validator.Unshared heap root requested plan group) :
    (validator.validate heap root requested).failure = none
      ∧ ∀ violation, violation ∈ (validator.validate heap root requested).heard
        ↔ validator.HeardAlone heap root requested violation := by
  let lone := fun part => (plan.setting.call plan.stops part).after .blank
  have ran : ∀ group ∈ requested, ∀ part, validator.groups? [group] = .ok part →
      plan.setting.call plan.stops part .blank = .ok () (lone part)
        ∧ (lone part).Traced plan.setting plan.stops
        ∧ (∀ violation, violation ∈ (validator.validate heap root [group]).heard
          ↔ violation ∈ (lone part).reported)
        ∧ ∀ stop duty, plan.setting.Evaluated (validator.validate heap root [group]).journal stop duty
          ↔ plan.setting.Evaluated (lone part).deeds stop duty := by
    intro group member part resolved
    obtain ⟨ledger, ran, rest⟩ := traced_of_success allowing planned resolved (alone group member)
    have isLone : lone part = ledger := by
      simp only [lone, Entry.after, ran]
    rw [isLone]
    exact ⟨ran, rest⟩
  -- Parts are different, so they are what different groups ask for, and these share no violation.
  have apart : plan.groups.parts.Pairwise fun earlier later => Setting.Straight plan.stops later
      ∨ plan.setting.Quiet plan.stops (lone earlier)
        fun bean place => (lone later).claimed bean place = true := by
    refine nodup.imp_of_mem fun {earlier later} isEarlier isLater different => ?_
    obtain ⟨other, isOther, resolvedOther⟩ := (parts earlier).mp isEarlier
    obtain ⟨group, isGroup, resolved⟩ := (parts later).mp isLater
    refine (free group isGroup).imp (fun straight => straight later resolved)
      fun unshared stop member duty own within claimed => ?_
    obtain ⟨-, traced, -, evaluated⟩ := ran group isGroup later resolved
    obtain ⟨-, tracedOther, -, evaluatedOther⟩ := ran other isOther earlier resolvedOther
    refine unshared other isOther (fun same => different ?_) stop member duty own
      ((evaluated stop duty).mpr (traced.claims stop member duty own within))
      ((evaluatedOther stop duty).mpr (tracedOther.claims stop member duty own claimed))
    rw [same, resolved] at resolvedOther
    exact (Except.ok.inj resolvedOther).symm
  have runsAlone : ∀ part ∈ plan.groups.parts,
      plan.setting.call plan.stops part .blank = .ok () (lone part) := by
    intro part member
    obtain ⟨group, isGroup, resolved⟩ := (parts part).mp member
    exact (ran group isGroup part resolved).1
  obtain ⟨after, together, reported⟩ := Setting.each_call_shadowed (stops_orderly planned) runsAlone
    apart Ledger.settled_blank fun part _ => .inr fun stop _ duty _ _ claimed => by
      rw [Ledger.claimed_blank] at claimed
      cases claimed
  have shows := validate_shows_by_default allowing planned
  rw [Plan.run, Setting.call_eq_each, together] at shows
  refine ⟨shows.1, fun violation => ?_⟩
  rw [shows.2.1, List.mem_reverse, reported]
  refine Iff.trans (or_iff_right List.not_mem_nil) ?_
  constructor
  · rintro ⟨part, member, found⟩
    obtain ⟨group, isGroup, resolved⟩ := (parts part).mp member
    exact ⟨group, isGroup, ((ran group isGroup part resolved).2.2.1 violation).mpr found⟩
  · rintro ⟨group, isGroup, heard⟩
    obtain ⟨part, resolved⟩ := groups?_of_success (alone group isGroup)
    exact ⟨part, (parts part).mpr ⟨group, isGroup, resolved⟩,
      ((ran group isGroup part resolved).2.2.1 violation).mp heard⟩

end Parts

/-- **What a request shows, compared with what its groups show alone.**  Where it succeeds, it shows
all that they do, and more exactly where it evaluates more.  Groups that carry no sequence and are
redefined by no bean, and groups that share no violation with others, are independent, in any order. -/
theorem validate_together (allowing : validator.resolver = .default) (some : requested ≠ [])
    (alone : ∀ group ∈ requested, (validator.validate heap root [group]).failure = none) :
    ∃ plan, validator.plan heap root requested = .ok plan
      ∧ ((validator.validate heap root requested).failure = none →
        (∀ violation, validator.HeardAlone heap root requested violation →
          violation ∈ (validator.validate heap root requested).heard)
        ∧ ((∀ violation ∈ (validator.validate heap root requested).heard,
            validator.HeardAlone heap root requested violation)
          ↔ ∀ stop, .ok stop ∈ plan.stops → ∀ duty ∈ stop.metadata.duties,
            plan.setting.Evaluated (validator.validate heap root requested).journal stop duty →
              validator.EvaluatedAlone heap root requested plan.setting stop duty
                ∨ ∀ violation ∈ (plan.setting.findings stop duty).violations,
                  validator.HeardAlone heap root requested violation))
      ∧ ((∀ group ∈ requested, validator.Straight plan group
          ∨ validator.Unshared heap root requested plan group) →
        ∀ reordered, (∀ group, group ∈ reordered ↔ group ∈ requested) →
          (validator.validate heap root reordered).failure = none
            ∧ ∀ violation, violation ∈ (validator.validate heap root reordered).heard
              ↔ validator.HeardAlone heap root requested violation) := by
  obtain ⟨plan, planned, nodup, parts⟩ := planned_of_alone some alone
  refine ⟨plan, planned, fun succeeded => ⟨fun violation heard =>
    heard_of_heardAlone allowing planned alone parts succeeded heard,
      heardAlone_iff allowing planned alone succeeded⟩, fun free reordered same => ?_⟩
  have someReordered : reordered ≠ [] := by
    obtain ⟨group, member⟩ := List.exists_mem_of_ne_nil requested some
    exact List.ne_nil_of_mem ((same group).mpr member)
  have aloneReordered : ∀ group ∈ reordered,
      (validator.validate heap root [group]).failure = none :=
    fun group member => alone group ((same group).mp member)
  -- Another order gives other groups to one plan, and neither hypothesis depends on the order.
  obtain ⟨own, isOwn, nodupOwn, partsOwn⟩ := planned_of_alone someReordered aloneReordered
  have made := plan_of_groups? planned (groups?_of_planned isOwn)
  rw [isOwn] at made
  obtain ⟨succeeds, heard⟩ := heard_iff_heardAlone allowing isOwn aloneReordered partsOwn nodupOwn
    fun group member => by
      rw [Except.ok.inj made]
      refine (free group ((same group).mp member)).imp (fun straight => straight) ?_
      exact fun unshared other isOther => unshared other ((same other).mp isOther)
  refine ⟨succeeds, fun violation => (heard violation).trans ?_⟩
  exact exists_congr fun group => and_congr_left fun _ => same group

end Planned

/-- In a ring of nodes without names, the two groups together show what each shows alone. -/
theorem validate_together_ring :
    let validate := Ring.validator.validate (Ring.heap .null .null) (.bean Ring.first)
    (validate [Ring.extra, Ring.basic]).failure = none
      ∧ ∀ violation, violation ∈ (validate [Ring.extra, Ring.basic]).heard
        ↔ violation ∈ (validate [Ring.basic]).heard ∨ violation ∈ (validate [Ring.extra]).heard := by
  intro validate
  have alone : ∀ group ∈ [Ring.basic, Ring.extra], (validate [group]).failure = none := by
    intro group member
    cases member with
    | head => exact Option.isNone_iff_eq_none.mp (by decide +kernel)
    | tail _ later =>
      cases List.mem_singleton.mp later
      exact Option.isNone_iff_eq_none.mp (by decide +kernel)
  have plain : ∀ group ∈ [Ring.basic, Ring.extra], group ≠ .defaultGroup
      ∧ GroupRequest.sequenceOf Ring.validator.types
        Ring.validator.cache.configuration.groupSequence group = .ok none := by
    intro group member
    cases member with
    | head => exact ⟨by decide, rfl⟩
    | tail _ later =>
      cases List.mem_singleton.mp later
      exact ⟨by decide, rfl⟩
  have allowing : Ring.validator.resolver = .default := rfl
  have some : [Ring.basic, Ring.extra] ≠ [] := nofun
  obtain ⟨plan, -, -, independent⟩ := validate_together allowing some alone
  have straight : ∀ group ∈ [Ring.basic, Ring.extra], Ring.validator.Straight plan group := by
    intro group member part resolved
    obtain ⟨named, carries⟩ := plain group member
    cases groups?_of_plain (.inr carries) resolved
    exact ⟨rfl, fun isDefault => absurd (List.mem_singleton.mp isDefault).symm named⟩
  obtain ⟨succeeds, heard⟩ := independent (fun group member => .inl (straight group member))
    [Ring.extra, Ring.basic] fun group => by simp [or_comm]
  refine ⟨succeeds, fun violation => (heard violation).trans ?_⟩
  simp [Validator.HeardAlone, validate]

/-- **Together with its first group, a sequence shows more than both show alone**, and all of these
requests succeed: it passes over the nodes without names, which the group has reported, and goes on
to the other group. -/
theorem validate_together_hides :
    let shown := Ring.validator.validate (Ring.heap .null .null) (.bean Ring.first)
    (∀ group ∈ [Ring.basic, Ring.ordered], (shown [group]).failure = none)
      ∧ (shown [Ring.basic, Ring.ordered]).failure = none
      ∧ ¬ ∀ violation ∈ (shown [Ring.basic, Ring.ordered]).heard,
        Ring.validator.HeardAlone (Ring.heap .null .null) (.bean Ring.first)
          [Ring.basic, Ring.ordered] violation := by
  let ofExtra := fun violation : Violation => match violation.constraint with
    | some (.mk _ _ groups _ _ _ _) => groups.contains Ring.extra
    | none => false
  have together : (Ring.validator.validate (Ring.heap .null .null) (.bean Ring.first)
      [Ring.basic, Ring.ordered]).heard.any ofExtra = true := by decide +kernel
  have alone : ∀ group ∈ [Ring.basic, Ring.ordered], (Ring.validator.validate
      (Ring.heap .null .null) (.bean Ring.first) [group]).heard.any ofExtra = false := by
    decide +kernel
  refine ⟨by decide +kernel, by decide +kernel, fun every => ?_⟩
  obtain ⟨violation, heard, isExtra⟩ := List.any_eq_true.mp together
  obtain ⟨group, member, heardAlone⟩ := every violation heard
  have none := List.any_eq_false.mp (alone group member) violation heardAlone
  exact none isExtra

end GraphValidation
