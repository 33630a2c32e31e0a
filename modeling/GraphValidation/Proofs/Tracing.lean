/-
**What the deeds of a success tell.**

Where the resolver allows everything, every constraint that is due is evaluated, so the deeds of a
success tell all: what has been found was found by a constraint that was evaluated, and what such a
constraint finds has been found.

* `Setting.Evaluated` — a constraint was evaluated at a stop.
* `Ledger.Traced` — deeds, claims and violations go with each other.
* `Setting.eq_of_evaluated` — what is evaluated with a duty on a bean is this duty.
* `Setting.call_traced` — **calls that succeed are traced**.
-/
import GraphValidation.Proofs.Exploration
import GraphValidation.Proofs.Settling

namespace GraphValidation

/-- A constraint was evaluated at a stop, for some group. -/
def Setting.Evaluated (setting : Setting) (deeds : List Event) (stop : Stop) (duty : Duty) : Prop :=
  ∃ group, .evaluated stop.bean (setting.site stop duty.place.property).path group duty.place ∈ deeds

/-- What has been reported was found by a constraint that has been evaluated. -/
def Ledger.Sourced (setting : Setting) (stops : List (Except ValidationError Stop)) (ledger : Ledger) :
    Prop :=
  ∀ violation ∈ ledger.reported, ∃ stop, .ok stop ∈ stops ∧ ∃ duty ∈ stop.metadata.duties,
    setting.Evaluated ledger.deeds stop duty ∧ violation ∈ (setting.findings stop duty).violations

/-- Deeds, claims and violations go with each other: what is evaluated has reported what it finds,
what is reported was found by what is evaluated, and what is claimed is evaluated. -/
structure Ledger.Traced (setting : Setting) (stops : List (Except ValidationError Stop))
    (ledger : Ledger) : Prop where
  told : ∀ stop, .ok stop ∈ stops → ∀ duty ∈ stop.metadata.duties,
    setting.Evaluated ledger.deeds stop duty →
      ∀ violation ∈ (setting.findings stop duty).violations, violation ∈ ledger.reported
  found : ∀ violation ∈ ledger.reported, ∃ stop, .ok stop ∈ stops ∧ ∃ duty ∈ stop.metadata.duties,
    setting.Evaluated ledger.deeds stop duty ∧ violation ∈ (setting.findings stop duty).violations
  claims : ∀ stop, .ok stop ∈ stops → ∀ duty ∈ stop.metadata.duties,
    ledger.claimed stop.bean duty.place = true → setting.Evaluated ledger.deeds stop duty

/-- Stops whose metadata is known by its type. -/
def Setting.Typed (stops : List (Except ValidationError Stop)) : Prop :=
  ∀ stop, .ok stop ∈ stops → ∀ other, .ok other ∈ stops →
    stop.metadata.type = other.metadata.type → stop.metadata = other.metadata

theorem MetaBean.place_type_of_mem_duties {metadata : MetaBean} {duty : Duty}
    (member : duty ∈ metadata.duties) : duty.place.type = metadata.type := by
  rcases List.mem_append.mp member with ofProperty | own
  · obtain ⟨property, -, member⟩ := List.mem_flatMap.mp ofProperty
    exact (mem_dutiesFrom member).2.1
  · exact (mem_dutiesFrom own).2.1

namespace Setting

variable {setting : Setting} {stops : List (Except ValidationError Stop)} {deeds more : List Event}
  {stop other : Stop} {duty another : Duty} {group : TypeKey} {ledger : Ledger}

theorem Evaluated.mono (evaluated : setting.Evaluated deeds stop duty)
    (kept : ∀ deed ∈ deeds, deed ∈ more) : setting.Evaluated more stop duty :=
  evaluated.imp fun _ => kept _

/-- The deeds of a journal are those of the ledger that it shows. -/
theorem mem_journal_iff {journal : List Event} {event : Event}
    (shown : journal.filter Event.isDeed = ledger.deeds.reverse) (isDeed : event.isDeed = true) :
    event ∈ journal ↔ event ∈ ledger.deeds := by
  rw [← @List.mem_reverse _ _ ledger.deeds, ← shown, List.mem_filter]
  exact ⟨fun done => ⟨done, isDeed⟩, fun done => done.1⟩

/-- What was evaluated is known from the deeds of a journal. -/
theorem evaluated_iff {journal : List Event}
    (shown : journal.filter Event.isDeed = ledger.deeds.reverse) :
    setting.Evaluated journal stop duty ↔ setting.Evaluated ledger.deeds stop duty :=
  exists_congr fun _ => mem_journal_iff shown rfl

/-- What duties find is known by the bean, the path and the place. -/
theorem findings_eq_of_same (beans : stop.bean = other.bean)
    (paths : (setting.site stop duty.place.property).path
      = (setting.site other duty.place.property).path) :
    setting.findings stop duty = setting.findings other duty := by
  have sites : setting.site stop duty.place.property = setting.site other duty.place.property := by
    simp only [site, Site.mk.injEq] at paths ⊢
    exact ⟨trivial, beans, paths, trivial⟩
  unfold findings
  rw [sites, beans]

/-- **What is evaluated with a duty on a bean is this duty**: duties are at the top of their lists, and
composing constraints below them. -/
theorem eq_of_evaluated (orderly : Orderly stops) (typed : Typed stops)
    (isStop : .ok stop ∈ stops) (isOther : .ok other ∈ stops) (own : duty ∈ stop.metadata.duties)
    (others : another ∈ other.metadata.duties) {within : TypeKey}
    (evaluated : .evaluated stop.bean (setting.site stop duty.place.property).path within duty.place
      ∈ (setting.findings other another).places.map (Event.evaluated other.bean
          (setting.site other another.place.property).path group)) :
    duty = another ∧ within = group ∧ stop.bean = other.bean
      ∧ (setting.site stop duty.place.property).path
        = (setting.site other another.place.property).path := by
  obtain ⟨place, inside, same⟩ := List.mem_map.mp evaluated
  injection same with beans paths groups places
  subst places
  have reaches := mem_places_findings inside
  have types : stop.metadata.type = other.metadata.type := by
    rw [← MetaBean.place_type_of_mem_duties own, ← MetaBean.place_type_of_mem_duties others]
    exact reaches.elim (fun same => by rw [same]) fun above => above.1
  have metadata := typed stop isStop other isOther types
  rw [metadata] at own
  rcases reaches with places | above
  · have one : duty = another :=
      List.inj_on_of_nodup_map (orderly.duties other isOther) own others places
    exact ⟨one, groups.symm, beans.symm, paths.symm⟩
  · exact absurd above (MetaBean.not_above_of_mem_duties others own)

/-- **A duty that is evaluated with another one finds the same.** -/
theorem findings_eq_of_evaluated (orderly : Orderly stops) (typed : Typed stops)
    (isStop : .ok stop ∈ stops) (isOther : .ok other ∈ stops) (own : duty ∈ stop.metadata.duties)
    (others : another ∈ other.metadata.duties) {within : TypeKey}
    (evaluated : .evaluated stop.bean (setting.site stop duty.place.property).path within duty.place
      ∈ (setting.findings other another).places.map (Event.evaluated other.bean
          (setting.site other another.place.property).path group)) :
    setting.findings stop duty = setting.findings other another := by
  obtain ⟨rfl, -, beans, paths⟩ :=
    eq_of_evaluated orderly typed isStop isOther own others evaluated
  exact findings_eq_of_same beans paths

/-- A duty that finds something is evaluated. -/
theorem places_of_violation {violation : Violation}
    (found : violation ∈ (setting.findings stop duty).violations) :
    ∃ rest, (setting.findings stop duty).places = duty.place :: rest := by
  rcases setting.findings_cases stop duty with ⟨value, judged, -⟩ | ⟨none, -⟩
  · obtain ⟨rest, places, -⟩ := judge_places duty.place duty.node
    exact ⟨rest, judged ▸ places⟩
  · rw [none] at found
    cases found

theorem evaluated_examined (allowing : setting.environment.resolver = .default)
    (succeeded : (setting.findings stop duty).failure = none) :
    setting.Evaluated (setting.examined group stop duty ledger).deeds stop duty := by
  obtain ⟨rest, places, -⟩ := findings_places allowing succeeded
  refine ⟨group, ?_⟩
  rw [deeds_examined, places]
  exact List.mem_append_left _ (List.mem_reverse.mpr List.mem_cons_self)

end Setting

namespace Ledger

variable {setting : Setting} {stops : List (Except ValidationError Stop)} {ledger : Ledger}
  {stop : Stop} {duty : Duty} {group : TypeKey}

theorem sourced_blank : Ledger.blank.Sourced setting stops :=
  fun _ none => absurd none List.not_mem_nil

/-- What is still reported, from more deeds, has its source. -/
theorem Sourced.mono {later : Ledger} (sourced : ledger.Sourced setting stops)
    (reported : later.reported = ledger.reported) (kept : ∀ deed ∈ ledger.deeds, deed ∈ later.deeds) :
    later.Sourced setting stops := by
  intro violation member
  rw [reported] at member
  obtain ⟨stop, isStop, duty, own, evaluated, finds⟩ := sourced violation member
  exact ⟨stop, isStop, duty, own, evaluated.mono kept, finds⟩

/-- What a duty reports has its source, also where the duty fails. -/
theorem Sourced.examined (sourced : ledger.Sourced setting stops) (member : .ok stop ∈ stops)
    (own : duty ∈ stop.metadata.duties) :
    (setting.examined group stop duty ledger).Sourced setting stops := by
  intro violation reported
  rw [Setting.reported_examined] at reported
  rcases List.mem_append.mp reported with new | old
  · obtain ⟨rest, places⟩ := Setting.places_of_violation (List.mem_reverse.mp new)
    refine ⟨stop, member, duty, own, ⟨group, ?_⟩, List.mem_reverse.mp new⟩
    rw [Setting.deeds_examined, places]
    exact List.mem_append_left _ (List.mem_reverse.mpr List.mem_cons_self)
  · obtain ⟨other, isOther, another, others, evaluated, finds⟩ := sourced violation old
    refine ⟨other, isOther, another, others, evaluated.mono fun deed done => ?_, finds⟩
    rw [Setting.deeds_examined]
    exact List.mem_append_right _ done

theorem traced_blank : Ledger.blank.Traced setting stops where
  told := fun _ _ _ _ evaluated => by
    obtain ⟨group, done⟩ := evaluated
    cases done
  found := sourced_blank
  claims := fun _ _ _ _ claimed => by
    rw [claimed_blank] at claimed
    cases claimed

theorem Traced.arriving (traced : ledger.Traced setting stops) (arrived : Stop) :
    Traced setting stops
      { ledger with
        deeds := .entered arrived.bean arrived.metadata arrived.path :: ledger.deeds } where
  told := by
    rintro stop member duty own ⟨group, done⟩
    refine traced.told stop member duty own ⟨group, ?_⟩
    cases done with
    | tail _ done => exact done
  found := Sourced.mono traced.found rfl fun _ => List.mem_cons_of_mem _
  claims := by
    intro stop member duty own claimed
    exact (traced.claims stop member duty own claimed).mono fun _ => List.mem_cons_of_mem _

/-- **Examining a duty that succeeds keeps a ledger traced.** -/
theorem Traced.examined (allowing : setting.environment.resolver = .default)
    (orderly : Setting.Orderly stops) (typed : Setting.Typed stops)
    (traced : ledger.Traced setting stops) (member : .ok stop ∈ stops)
    (own : duty ∈ stop.metadata.duties) (succeeded : (setting.findings stop duty).failure = none) :
    (setting.examined group stop duty ledger).Traced setting stops where
  told := by
    rintro other isOther another others ⟨within, done⟩ violation finds
    rw [Setting.deeds_examined] at done
    rw [Setting.reported_examined]
    rcases List.mem_append.mp done with new | old
    · rw [Setting.findings_eq_of_evaluated orderly typed isOther member others own
        (List.mem_reverse.mp new)] at finds
      exact List.mem_append_left _ (List.mem_reverse.mpr finds)
    · exact List.mem_append_right _
        (traced.told other isOther another others ⟨within, old⟩ violation finds)
  found := Sourced.examined traced.found member own
  claims := by
    intro other isOther another others claimed
    rcases of_claimed_claiming claimed with before | ⟨places, id, ofOther, ofStop⟩
    · refine (traced.claims other isOther another others before).mono fun deed done => ?_
      rw [Setting.deeds_examined]
      exact List.mem_append_right _ done
    · obtain ⟨rfl, rfl⟩ := orderly.eq_of_same member isOther own others places ofStop ofOther
      exact Setting.evaluated_examined allowing succeeded

end Ledger

/-- **Calls that succeed are traced.** -/
theorem Setting.call_traced {setting : Setting} {stops : List (Except ValidationError Stop)}
    (allowing : setting.environment.resolver = .default) (orderly : Setting.Orderly stops)
    (typed : Setting.Typed stops) {groups : Groups} {ledger : Ledger}
    (succeeded : setting.call stops groups .blank = .ok () ledger) : ledger.Traced setting stops := by
  have keeps : (setting.call stops groups).Keeps (Ledger.Traced setting stops) fun _ => True := by
    refine call_keeps groups (fun _ _ => trivial) (fun stop _ ledger traced => traced.arriving stop) ?_
    intro stop member group duty own
    exact examine_keeps (fun ledger traced _ _ succeeded =>
      traced.examined allowing orderly typed member own succeeded) fun _ _ => trivial
  exact keeps.of_ok Ledger.traced_blank succeeded

end GraphValidation
