/-
**What a success has settled.**

A call that succeeds has come to know all that can be found by the constraints that it evaluated: none
of them has failed, and what they found has been reported.  So nothing is lost where a later pass
passes them over.

* `Setting.Orderly` — no bean is a stop twice, and no constraint a duty twice.
* `Ledger.Settled` — what has been evaluated has succeeded, and has been reported.
* `Ledger.Settled.examined` — **examining a duty keeps a ledger settled**.
-/
import GraphValidation.Proofs.Calls
import GraphValidation.Proofs.Sweeps

namespace GraphValidation

/-! ### Claims of one bean and of others -/

namespace Ledger

variable {ledger : Ledger} {bean other : Value} {place elsewhere : NodePlace}

/-- What is claimed after one more claim was claimed before, or is what was claimed. -/
theorem of_claimed_claiming (claimed : (ledger.claiming bean place).claimed other elsewhere = true) :
    ledger.claimed other elsewhere = true
      ∨ elsewhere = place ∧ ∃ id, other.bean?.map (·.id) = some id ∧ bean.bean?.map (·.id) = some id := by
  unfold Ledger.claimed claiming at *
  cases isOther : other.bean? with
  | none => simp [isOther] at claimed
  | some ref =>
    cases isBean : bean.bean? with
    | none => exact .inl (by simpa [isBean, isOther] using claimed)
    | some own =>
      simp only [isBean, isOther, List.contains_cons, Bool.or_eq_true, beq_iff_eq,
        Prod.mk.injEq] at claimed
      rcases claimed with ⟨ids, places⟩ | before
      · exact .inr ⟨places, own.id, by rw [← ids]; rfl, rfl⟩
      · exact .inl before

theorem claimed_claiming_of_claimed (claimed : ledger.claimed other elsewhere = true) :
    (ledger.claiming bean place).claimed other elsewhere = true := by
  unfold Ledger.claimed claiming at *
  cases isOther : other.bean? with
  | none => simp [isOther] at claimed
  | some ref =>
    simp only [isOther, List.contains_iff_mem] at claimed
    cases bean.bean? with
    | none => simpa using claimed
    | some own => simp [claimed]

theorem exists_id_of_claimed (claimed : ledger.claimed bean place = true) :
    ∃ id, bean.bean?.map (·.id) = some id := by
  cases isBean : bean.bean? with
  | none => simp [Ledger.claimed, isBean] at claimed
  | some ref => exact ⟨ref.id, rfl⟩

/-- Claims are the same for all references to a bean. -/
theorem claimed_of_same {id : String} (isOther : other.bean?.map (·.id) = some id)
    (isBean : bean.bean?.map (·.id) = some id) (claimed : ledger.claimed bean place = true) :
    ledger.claimed other place = true := by
  obtain ⟨ref, refers, rfl⟩ := Option.map_eq_some_iff.mp isOther
  obtain ⟨own, owns, same⟩ := Option.map_eq_some_iff.mp isBean
  simpa [Ledger.claimed, refers, owns, same] using claimed

/-- A claim on a bean is claimed for all references to it. -/
theorem claimed_claiming_self {id : String} (isOther : other.bean?.map (·.id) = some id)
    (isBean : bean.bean?.map (·.id) = some id) :
    (ledger.claiming bean place).claimed other place = true := by
  obtain ⟨ref, refers, rfl⟩ := Option.map_eq_some_iff.mp isOther
  obtain ⟨own, owns, same⟩ := Option.map_eq_some_iff.mp isBean
  simp [claimed, claiming, refers, owns, same]

end Ledger

/-! ### Settled ledgers -/

/-- No bean is a stop twice, and no place of metadata is that of two duties. -/
structure Setting.Orderly (stops : List (Except ValidationError Stop)) : Prop where
  beans : (Setting.idsOf stops).Nodup
  duties : ∀ stop, .ok stop ∈ stops → (stop.metadata.duties.map (·.place)).Nodup

/-- Two duties with one place on one bean are one. -/
theorem Setting.Orderly.eq_of_same {stops : List (Except ValidationError Stop)}
    (orderly : Setting.Orderly stops) {stop other : Stop} (isStop : .ok stop ∈ stops)
    (isOther : .ok other ∈ stops) {duty another : Duty} (own : duty ∈ stop.metadata.duties)
    (others : another ∈ other.metadata.duties) (places : another.place = duty.place) {id : String}
    (ofStop : stop.bean.bean?.map (·.id) = some id)
    (ofOther : other.bean.bean?.map (·.id) = some id) : other = stop ∧ another = duty := by
  have one := Setting.stop_eq_of_id orderly.beans isOther isStop ofOther ofStop
  subst one
  exact ⟨rfl, List.inj_on_of_nodup_map (orderly.duties _ isOther) others own places⟩

/-- What has been evaluated at the stops has succeeded, and has been reported. -/
def Ledger.Settled (setting : Setting) (stops : List (Except ValidationError Stop))
    (ledger : Ledger) : Prop :=
  ∀ stop, .ok stop ∈ stops → ∀ duty ∈ stop.metadata.duties,
    ledger.claimed stop.bean duty.place = true → (setting.findings stop duty).failure = none
      ∧ ∀ violation ∈ (setting.findings stop duty).violations, violation ∈ ledger.reported

namespace Ledger

variable {setting : Setting} {stops : List (Except ValidationError Stop)} {ledger : Ledger}
  {group : TypeKey} {stop : Stop} {duty : Duty}

@[simp] theorem claimed_blank (bean : Value) (place : NodePlace) :
    Ledger.blank.claimed bean place = false := by
  unfold claimed
  cases bean.bean? <;> rfl

theorem settled_blank : Ledger.blank.Settled setting stops := by
  intro stop _ duty _ claimed
  rw [claimed_blank] at claimed
  cases claimed

/-- **Examining a duty keeps a ledger settled**, if the duty does not fail. -/
theorem Settled.examined (orderly : Setting.Orderly stops) (settled : ledger.Settled setting stops)
    (member : .ok stop ∈ stops) (own : duty ∈ stop.metadata.duties)
    (succeeded : (setting.findings stop duty).failure = none) :
    (setting.examined group stop duty ledger).Settled setting stops := by
  intro other isOther another others claimed
  rw [Setting.reported_examined]
  -- What is claimed was claimed before, or it is this very duty: by its place and its bean it can be
  -- no other one.
  rcases of_claimed_claiming claimed with before | ⟨places, id, ofOther, ofStop⟩
  · obtain ⟨flawless, reported⟩ := settled other isOther another others before
    exact ⟨flawless, fun violation found => List.mem_append_right _ (reported violation found)⟩
  · obtain ⟨rfl, rfl⟩ := orderly.eq_of_same member isOther own others places ofStop ofOther
    exact ⟨succeeded, fun violation found => List.mem_append_left _ (List.mem_reverse.mpr found)⟩

end Ledger

theorem stops_orderly {validator : Validator} {heap : Heap} {root : Value}
    {requested : List TypeKey} {plan : Plan}
    (planned : validator.plan heap root requested = .ok plan) : Setting.Orderly plan.stops where
  beans := plan.setting.itinerary_nodup plan.root plan.metadata
  duties := fun stop member => MetaBean.duties_nodup (stops_wellFormed planned stop member)

end GraphValidation
