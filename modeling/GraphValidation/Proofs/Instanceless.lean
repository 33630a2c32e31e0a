/-
**A value, and the bean that holds it.**

A value in place of a property and the same value in a bean violate the same constraints.  But only a
bean remembers which constraints have been evaluated on it; so for the property of a bean a sequence
can pass over a violation that an earlier group has reported, and go on.

* `judge_map` — what a constraint finds without a bean is what it finds on the bean, but for the bean.
* `Setting.callProperty_outlasts` — **on a bean the constraints of a property go at least as far**.
* `Setting.callProperty_agrees` — they go as far, where no sequence passes over a violation.
* `validateValue_agrees` — **both calls compared**.
* `validateValue_differs` — a sequence that goes on only on the bean.
-/
import GraphValidation.Proofs.Fresh
import GraphValidation.Proofs.Outlasting
import GraphValidation.Proofs.Settling
import GraphValidation.Proofs.ValueCalls

namespace GraphValidation

/-- A violation, but for the bean on which it was found. -/
def Violation.beanless (violation : Violation) : Violation := { violation with leafBean := none }

/-! ### Findings without a bean -/

namespace Findings

/-- The findings with changed violations. -/
def map (change : Violation → Violation) (findings : Findings) : Findings :=
  { findings with violations := findings.violations.map change }

variable (change : Violation → Violation)

theorem map_andThen (first second : Findings) :
    (first.andThen second).map change = (first.map change).andThen (second.map change) := by
  unfold andThen map
  cases failure : first.failure with
  | some error => simp only [failure]
  | none => simp only [List.map_append]

theorem silenced_map (findings : Findings) : (findings.map change).silenced = findings.silenced := rfl

theorem map_silenced (findings : Findings) : findings.silenced.map change = findings.silenced := rfl

theorem isEmpty_map (findings : Findings) :
    (findings.map change).violations.isEmpty = findings.violations.isEmpty := List.isEmpty_map

end Findings

section Judgements

variable {environment : Environment} {site other : Site} {change : Violation → Violation}

theorem judgeOwn_map (paths : other.path = site.path)
    (maps : ∀ node template below value, change (site.violation environment node template below value)
      = other.violation environment node template below value) (value : Value)
    (node : ConstraintNode) :
    judgeOwn environment other value node = (judgeOwn environment site value node).map change := by
  unfold judgeOwn
  cases node.content.validator with
  | none => rfl
  | some named =>
    obtain ⟨name, predicate⟩ := named
    simp only
    cases predicate environment.heap value (.start node.content.template) with
    | error error => rw [paths]; rfl
    | ok answer =>
      obtain ⟨valid, report⟩ := answer
      cases valid with
      | true => rfl
      | false =>
        cases enabled : report.defaultEnabled <;>
          simp [Findings.violated, Findings.map, violationsOf, enabled, maps, Function.comp_def]

mutual

/-- **Where the violations of a site are changed ones, so are the findings.** -/
theorem judge_map (paths : other.path = site.path)
    (maps : ∀ node template below value, change (site.violation environment node template below value)
      = other.violation environment node template below value) (place : NodePlace) (value : Value)
    (node : ConstraintNode) :
    judge environment other place value node
      = (judge environment site place value node).map change := by
  cases node with
  | mk content composing =>
    have below := judgeAll_map paths maps place 0 value composing
    have own := judgeOwn_map paths maps value (.mk content composing)
    have reported := maps (.mk content composing) content.template none value
    unfold judge
    rw [Findings.map_andThen]
    refine congrArg (Findings.reached place).andThen ?_
    split
    · rw [Findings.map_andThen, Findings.map_silenced, below, Findings.silenced_map,
        Findings.isEmpty_map]
      refine congrArg (Findings.andThen _) ?_
      split
      · exact own
      · rw [← reported]
        rfl
    · rw [Findings.map_andThen, below, own]

theorem judgeAll_map (paths : other.path = site.path)
    (maps : ∀ node template below value, change (site.violation environment node template below value)
      = other.violation environment node template below value) (place : NodePlace) (index : Nat)
    (value : Value) (nodes : List ConstraintNode) :
    judgeAll environment other place index value nodes
      = (judgeAll environment site place index value nodes).map change := by
  cases nodes with
  | nil => rfl
  | cons node rest =>
    unfold judgeAll
    rw [Findings.map_andThen, judge_map paths maps, judgeAll_map paths maps]

end

end Judgements

/-! ### A bean that holds a value -/

/-- The constraints of a property, at their places. -/
abbrev MetaBean.dutiesOf (metadata : MetaBean) (property : MetaProperty) : List Duty :=
  dutiesFrom metadata.type (some property.name) 0 property.constraints

theorem MetaBean.mem_duties_of_mem_dutiesOf {metadata : MetaBean} {property : MetaProperty}
    (member : property ∈ metadata.properties) {duty : Duty} (own : duty ∈ metadata.dutiesOf property) :
    duty ∈ metadata.duties :=
  List.mem_append_left _ (List.mem_flatMap.mpr ⟨property, member, own⟩)

/-- **A bean holds a value in a property**: whatever the constraints of the property read on the bean
is this value. -/
structure Setting.Holds (setting : Setting) (stop : Stop) (property : MetaProperty) (value : Value) :
    Prop where
  allowing : setting.environment.resolver = .default
  isBean : stop.bean.bean?.isSome
  atRoot : stop.path = .root
  wellFormed : stop.metadata.WellFormed
  member : property ∈ stop.metadata.properties
  reads : ∀ node ∈ property.constraints, ∀ access, node.content.access = some access →
    access.read setting.environment.heap stop.bean = .ok value

namespace Setting

variable {setting : Setting} {stop : Stop} {property : MetaProperty} {value : Value}
  {group : TypeKey} {duty : Duty}

/-- Without the bean a constraint of the property finds what it finds on the bean. -/
theorem Holds.judge_vacant (holds : setting.Holds stop property value)
    (own : duty ∈ stop.metadata.dutiesOf property) :
    judge setting.environment (setting.site (.vacant stop.metadata) duty.place.property) duty.place
        value duty.node
      = (setting.findings stop duty).map Violation.beanless := by
  obtain ⟨inside, -, named, -⟩ := mem_dutiesFrom own
  obtain ⟨access, -, reads⟩ :=
    (holds.wellFormed.properties property holds.member).constraints duty.node inside
  have way : duty.node.content.access = some access := reads duty.node (.self duty.node)
  have allowed : setting.isOpen (setting.site stop duty.place.property) access.kind = .ok true := by
    simp [isOpen, answer, holds.allowing, Resolver.default]
  have read : setting.value (setting.site stop duty.place.property) access = .ok value := by
    have bean : (setting.site stop duty.place.property).bean = stop.bean := rfl
    simp only [Setting.value, bean, holds.reads duty.node inside access way]
  have found : setting.findings stop duty = judge setting.environment
      (setting.site stop duty.place.property) duty.place value duty.node := by
    simp only [findings, way, allowed, read]
  have paths : (setting.site (.vacant stop.metadata) duty.place.property).path
      = (setting.site stop duty.place.property).path := by
    simp only [Setting.site, Stop.vacant, holds.atRoot]
  rw [found, judge_map paths]
  intro node template below value
  simp only [Site.violation, Violation.beanless, paths]
  rfl

/-- A constraint of a group is evaluated without the bean, whatever has been evaluated before. -/
theorem Holds.consider_of_belongs (holds : setting.Holds stop property value)
    (own : duty ∈ stop.metadata.dutiesOf property)
    (belongs : duty.belongs setting.environment.types group = true) (ledger : Ledger) :
    setting.consider stop.metadata value group duty ledger
      = ledger.concluding (setting.site (.vacant stop.metadata) duty.place.property) group
          ((setting.findings stop duty).map Violation.beanless) := by
  simp only [consider, holds.judge_vacant own, belongs, if_true]
  rfl

theorem consider_of_other (metadata : MetaBean) (value : Value)
    (other : duty.belongs setting.environment.types group = false) (ledger : Ledger) :
    setting.consider metadata value group duty ledger = .ok () ledger := by
  simp only [consider, other, Bool.false_eq_true, if_false]
  rfl

/-- What a constraint of the property that has not failed on the bean reports without it. -/
theorem Holds.consider_ok (holds : setting.Holds stop property value)
    (own : duty ∈ stop.metadata.dutiesOf property)
    (belongs : duty.belongs setting.environment.types group = true)
    (flawless : (setting.findings stop duty).failure = none) (ledger : Ledger) :
    ∃ later, setting.consider stop.metadata value group duty ledger = .ok () later
      ∧ later.reported = ((setting.findings stop duty).violations.map Violation.beanless).reverse
        ++ ledger.reported := by
  have failure : ((setting.findings stop duty).map Violation.beanless).failure = none := flawless
  rw [holds.consider_of_belongs own belongs, Ledger.concluding, failure]
  exact ⟨_, rfl, rfl⟩

/-! ### Side by side -/

/-- What has been found without the bean has been found on it, and, where it is exact, also the other
way around.  On the bean, what has been evaluated has been reported. -/
structure Beside (setting : Setting) (stop : Stop) (exact : Prop) (without onBean : Ledger) : Prop where
  settled : onBean.Settled setting [.ok stop]
  found : ∀ violation ∈ without.reported, violation ∈ onBean.reported.map Violation.beanless
  complete : exact → ∀ violation ∈ onBean.reported, violation.beanless ∈ without.reported

/-- Both fail with the same error, or both succeed and the ledgers are `ending`. -/
inductive Alike (ending : Ledger → Ledger → Prop) :
    EStateM.Result ValidationError Ledger Unit → EStateM.Result ValidationError Ledger Unit → Prop
  | ok {without onBean : Ledger} : ending without onBean → Alike ending (.ok () without) (.ok () onBean)
  | error (error : ValidationError) (without onBean : Ledger) :
    Alike ending (.error error without) (.error error onBean)

/-- **A step without the bean goes together with a step on it**: one fails where the other does, what
they find stays beside each other, and where the one on the bean reports the other one does too. -/
def Together (setting : Setting) (stop : Stop) (exact : Prop) (step onBean : Entry Unit) : Prop :=
  ∀ without ledger, setting.Beside stop exact without ledger →
    Alike (fun later after => setting.Beside stop exact later after
        ∧ without.reported.length ≤ later.reported.length
        ∧ (ledger.reported.length < after.reported.length →
          without.reported.length < later.reported.length))
      (step without) (onBean ledger)

namespace Together

variable {exact : Prop}

theorem nothing : setting.Together stop exact (pure ()) (pure ()) :=
  fun _ _ beside => .ok ⟨beside, Nat.le_refl _, fun longer => absurd longer (Nat.lt_irrefl _)⟩

theorem andThen {step next first second : Entry Unit} (leads : setting.Together stop exact step first)
    (ends : setting.Together stop exact next second) :
    setting.Together stop exact (do step; next) (do first; second) := by
  intro without ledger beside
  have leading := leads without ledger beside
  rw [Run.bind_apply, Run.bind_apply]
  generalize step without = result at leading
  generalize first ledger = shown at leading
  cases leading with
  | error error later after => exact .error error later after
  | ok holds =>
    rename_i later after
    obtain ⟨beside, longer, reports⟩ := holds
    have ending := ends later after beside
    dsimp only
    generalize next later = result at ending
    generalize second after = shown at ending
    cases ending with
    | error error last final => exact .error error last final
    | ok holds =>
      rename_i last final
      obtain ⟨beside, longest, reportsLater⟩ := holds
      refine .ok ⟨beside, Nat.le_trans longer longest, fun grown => ?_⟩
      by_cases early : ledger.reported.length < after.reported.length
      · have := reports early
        omega
      · have := reportsLater (by omega)
        omega

theorem each {α : Type} {step onBean : α → Entry Unit} {items : List α}
    (steps : ∀ item ∈ items, setting.Together stop exact (step item) (onBean item)) :
    setting.Together stop exact (Entry.each step items) (Entry.each onBean items) := by
  induction items with
  | nil => exact nothing
  | cons item rest ih =>
    exact andThen (steps item List.mem_cons_self)
      (ih fun other member => steps other (List.mem_cons_of_mem _ member))

end Together

theorem orderly_singleton (isBean : stop.bean.bean?.isSome) (wellFormed : stop.metadata.WellFormed) :
    Orderly [.ok stop] where
  beans := by
    obtain ⟨ref, isRef⟩ := Option.isSome_iff_exists.mp isBean
    simp [idsOf, idAt, isRef]
  duties := by
    intro other member
    cases List.mem_singleton.mp member
    exact MetaBean.duties_nodup wellFormed

/-- **A constraint of the property goes together without the bean and on it.** -/
theorem Holds.consider_together (holds : setting.Holds stop property value)
    (own : duty ∈ stop.metadata.dutiesOf property) (exact : Prop) :
    setting.Together stop exact (setting.consider stop.metadata value group duty)
      (setting.examine group stop duty) := by
  intro without ledger beside
  have inside := MetaBean.mem_duties_of_mem_dutiesOf holds.member own
  have orderly := orderly_singleton holds.isBean holds.wellFormed
  have isStop : Except.ok stop ∈ [(.ok stop : Except ValidationError Stop)] := List.mem_cons_self
  have silent : ¬ ledger.reported.length < ledger.reported.length := Nat.lt_irrefl _
  cases belongs : duty.belongs setting.environment.types group with
  | false =>
    rw [consider_of_other stop.metadata value belongs, examine_of_other belongs]
    exact .ok ⟨beside, Nat.le_refl _, fun longer => absurd longer silent⟩
  | true =>
    cases claimed : ledger.claimed stop.bean duty.place with
    | true =>
      -- The duty has been evaluated on the bean before, and what it finds has been reported.
      obtain ⟨flawless, reported⟩ := beside.settled stop isStop duty inside claimed
      obtain ⟨later, considered, noted⟩ := holds.consider_ok own belongs flawless without
      rw [considered, examine_of_claimed claimed]
      refine .ok ⟨⟨beside.settled, fun violation found => ?_, fun isExact violation heard => ?_⟩, ?_,
        fun longer => absurd longer silent⟩
      · rw [noted] at found
        rcases List.mem_append.mp found with new | early
        · obtain ⟨original, isFinding, rfl⟩ := List.mem_map.mp (List.mem_reverse.mp new)
          exact List.mem_map_of_mem (reported original isFinding)
        · exact beside.found violation early
      · rw [noted]
        exact List.mem_append_right _ (beside.complete isExact violation heard)
      · rw [noted, List.length_append]
        exact Nat.le_add_left _ _
    | false =>
      cases failure : (setting.findings stop duty).failure with
      | some error =>
        have failed : ((setting.findings stop duty).map Violation.beanless).failure = some error :=
          failure
        rw [holds.consider_of_belongs own belongs, Ledger.concluding, failed,
          examine_of_new belongs claimed, failure]
        exact .error error _ _
      | none =>
        obtain ⟨later, considered, noted⟩ := holds.consider_ok own belongs failure without
        rw [considered, examine_of_new belongs claimed, failure]
        refine .ok ⟨⟨beside.settled.examined orderly isStop inside failure, fun violation found => ?_,
          fun isExact violation heard => ?_⟩, ?_, fun longer => ?_⟩
        · rw [noted, List.mem_append, List.mem_reverse] at found
          rw [reported_examined, List.map_append, List.map_reverse]
          exact List.mem_append.mpr (found.imp List.mem_reverse.mpr (beside.found violation))
        · rw [reported_examined, List.mem_append, List.mem_reverse] at heard
          rw [noted]
          exact List.mem_append.mpr (heard.imp
            (fun new => List.mem_reverse.mpr (List.mem_map_of_mem new))
            (beside.complete isExact violation))
        · rw [noted, List.length_append]
          exact Nat.le_add_left _ _
        · rw [reported_examined] at longer
          rw [noted]
          simp only [List.length_append, List.length_reverse, List.length_map] at longer ⊢
          omega

theorem Holds.sweep_together (holds : setting.Holds stop property value) (exact : Prop)
    (group : TypeKey) :
    setting.Together stop exact (setting.sweepValue stop.metadata property value group)
      (setting.sweepProperty stop property group) :=
  .each fun _ own => holds.consider_together own exact

/-! ### On the bean it goes at least as far -/

/-- What goes together on the bean outlasts what goes together without it. -/
theorem Holds.consider_outlasts (holds : setting.Holds stop property value)
    (own : duty ∈ stop.metadata.dutiesOf property) :
    Entry.Outlasts (setting.Beside stop False) False (setting.examine group stop duty)
      (setting.consider stop.metadata value group duty) := by
  have inside := MetaBean.mem_duties_of_mem_dutiesOf holds.member own
  have orderly := orderly_singleton holds.isBean holds.wellFormed
  refine ⟨.examine setting group stop duty, .consider setting stop.metadata value group duty, ?_, ?_⟩
  · intro without ledger after beside succeeded
    rcases examine_eq_ok succeeded with ⟨rfl, -⟩ | ⟨rfl, -, -, failure⟩
    · exact beside
    · refine ⟨beside.settled.examined orderly List.mem_cons_self inside failure,
        fun violation found => ?_, False.elim⟩
      rw [reported_examined, List.map_append]
      exact List.mem_append_right _ (beside.found violation found)
  · intro without ledger after beside succeeded
    have together : Alike _ (setting.consider stop.metadata value group duty without)
        (setting.examine group stop duty ledger) := holds.consider_together own False without ledger beside
    rw [succeeded] at together
    generalize setting.consider stop.metadata value group duty without = result at together
    cases together with
    | ok ends => exact .inl ⟨_, rfl, ends.1, ends.2.2⟩

/-- **On a bean the constraints of a property go at least as far** as on the value alone. -/
theorem Holds.callProperty_outlasts (holds : setting.Holds stop property value) (groups : Groups) :
    Entry.Outlasts (setting.Beside stop False) False (setting.callProperty stop property groups)
      (setting.callValue stop.metadata property value groups) := by
  rw [callProperty_eq_rows, callValue_eq_rows]
  exact .each fun row _ => .upToFirst (fun group => .each fun duty own =>
    holds.consider_outlasts own) row

/-! ### As far, where no sequence passes over a violation -/

/-- A sweep over a value reports only where a constraint of the group is violated. -/
theorem Holds.violated_of_reports (holds : setting.Holds stop property value) {duties : List Duty}
    (own : ∀ duty ∈ duties, duty ∈ stop.metadata.dutiesOf property) {without later : Ledger}
    (succeeded : Entry.each (setting.consider stop.metadata value group) duties without
      = .ok () later) (reports : without.reported.length < later.reported.length) :
    ∃ duty ∈ duties, duty.belongs setting.environment.types group = true
      ∧ setting.Violated stop duty := by
  induction duties generalizing without with
  | nil =>
    cases succeeded
    exact absurd reports (Nat.lt_irrefl _)
  | cons duty rest ih =>
    obtain ⟨between, considered, succeeded⟩ := Entry.andThen_eq_ok succeeded
    by_cases early : without.reported.length < between.reported.length
    · refine ⟨duty, List.mem_cons_self, ?_⟩
      cases belongs : duty.belongs setting.environment.types group with
      | false =>
        rw [consider_of_other stop.metadata value belongs] at considered
        cases considered
        exact absurd early (Nat.lt_irrefl _)
      | true =>
        refine ⟨rfl, fun none => ?_⟩
        rw [holds.consider_of_belongs (own duty List.mem_cons_self) belongs] at considered
        unfold Ledger.concluding at considered
        split at considered
        · cases considered
          simp [Ledger.noting, Findings.map, none] at early
        · cases considered
    · have longer := Entry.Lengthens.consider setting stop.metadata value group duty without between
        considered
      obtain ⟨other, member, found⟩ := ih (fun other member =>
        own other (List.mem_cons_of_mem _ member)) succeeded (by omega)
      exact ⟨other, List.mem_cons_of_mem _ member, found⟩

/-- What was evaluated of a property is evaluated after the groups of a row, and nothing that belongs
to none of them. -/
theorem claimed_of_row {row : List TypeKey} {ledger later : Ledger}
    (succeeded : Entry.upToFirst (setting.sweepProperty stop property) row ledger = .ok () later)
    (own : duty ∈ stop.metadata.dutiesOf property)
    (claimed : later.claimed stop.bean duty.place = true) :
    ledger.claimed stop.bean duty.place = true
      ∨ ∃ group ∈ row, duty.belongs setting.environment.types group = true := by
  have nodup := dutiesFrom_nodup stop.metadata.type (some property.name) 0 property.constraints
  induction row generalizing ledger with
  | nil =>
    cases succeeded
    exact .inl claimed
  | cons first rest ih =>
    obtain ⟨between, swept, ends⟩ := Entry.upToFirst_eq_ok succeeded
    have here : between.claimed stop.bean duty.place = true →
        ledger.claimed stop.bean duty.place = true
          ∨ ∃ group ∈ first :: rest, duty.belongs setting.environment.types group = true := by
      intro known
      rcases ((swept_of_ok nodup swept).claims duty.place).mp known with
        before | ⟨-, other, inside, belongs, same⟩
      · exact .inl before
      · have equal := List.inj_on_of_nodup_map nodup inside own same
        exact .inr ⟨first, List.mem_cons_self, equal ▸ belongs⟩
    rcases ends with ⟨-, rfl⟩ | ⟨-, ends⟩
    · exact here claimed
    · rcases ih ends with before | ⟨other, member, belongs⟩
      · exact here before
      · exact .inr ⟨other, List.mem_cons_of_mem _ member, belongs⟩

/-- A row goes together without the bean and on it, if what it passes over before its last group is
not violated. -/
theorem Holds.row_together (holds : setting.Holds stop property value) {row : List TypeKey}
    {without ledger : Ledger} (beside : setting.Beside stop True without ledger)
    (free : ∀ group ∈ row.dropLast, ∀ duty ∈ stop.metadata.dutiesOf property,
      duty.belongs setting.environment.types group = true → setting.Violated stop duty →
        ledger.claimed stop.bean duty.place = false) :
    Alike (setting.Beside stop True)
      (Entry.upToFirst (setting.sweepValue stop.metadata property value) row without)
      (Entry.upToFirst (setting.sweepProperty stop property) row ledger) := by
  have nodup := dutiesFrom_nodup stop.metadata.type (some property.name) 0 property.constraints
  induction row generalizing without ledger with
  | nil => exact .ok beside
  | cons first rest ih =>
    have together := holds.sweep_together True first without ledger beside
    rw [Entry.upToFirst_cons, Entry.upToFirst_cons]
    cases considered : setting.sweepValue stop.metadata property value first without with
    | error error later =>
      rw [considered] at together
      generalize setting.sweepProperty stop property first ledger = shown at together ⊢
      cases together with
      | error => exact .error error _ _
    | ok _ later =>
      rw [considered] at together
      cases examined : setting.sweepProperty stop property first ledger with
      | error error after =>
        rw [examined] at together
        cases together
      | ok _ after =>
        rw [examined] at together
        cases together with
        | ok ends =>
          obtain ⟨beside, -, reports⟩ := ends
          have swept := swept_of_ok nodup examined
          cases rest with
          | nil =>
            dsimp only
            have last : ∀ (condition : Prop) [Decidable condition] (ledger : Ledger)
                (step : TypeKey → Entry Unit), (if condition then .ok () ledger
                  else Entry.upToFirst step [] ledger) = EStateM.Result.ok () ledger :=
              fun _ _ _ _ => ite_self _
            rw [last, last]
            exact .ok beside
          | cons next others =>
            have early : first ∈ (first :: next :: others).dropLast := List.mem_cons_self
            have same : without.reported.length < later.reported.length
                ↔ ledger.reported.length < after.reported.length := by
              refine ⟨fun grown => ?_, reports⟩
              obtain ⟨duty, own, belongs, violated⟩ :=
                holds.violated_of_reports (fun _ own => own) considered grown
              have new := free first early duty own belongs violated
              exact swept.reports_iff.mpr ⟨duty, mem_fresh.mpr ⟨own, belongs, new⟩, violated⟩
            by_cases grown : ledger.reported.length < after.reported.length
            · simp only [if_pos grown, if_pos (same.mpr grown)]
              exact .ok beside
            · simp only [if_neg grown, if_neg (mt same.mp grown)]
              refine ih beside fun group member duty own belongs violated => ?_
              have before := free group (List.mem_cons_of_mem _ member) duty own belongs violated
              -- What the first group has evaluated it has found not to be violated.
              by_contra known
              rcases (swept.claims duty.place).mp (by simpa using known) with
                claimed | ⟨-, other, inside, belongsFirst, place⟩
              · rw [before] at claimed
                cases claimed
              · have equal := List.inj_on_of_nodup_map nodup inside own place
                subst equal
                exact grown (swept.reports_iff.mpr
                  ⟨other, mem_fresh.mpr ⟨own, belongsFirst, before⟩, violated⟩)

/-- No constraint that is violated belongs to groups of two rows, in the later one before its end. -/
def Unrepeated (setting : Setting) (stop : Stop) (property : MetaProperty)
    (rows : List (List TypeKey)) : Prop :=
  rows.Pairwise fun earlier later => ∀ duty ∈ stop.metadata.dutiesOf property,
    setting.Violated stop duty →
      (∃ group ∈ earlier, duty.belongs setting.environment.types group = true) →
        ∀ group ∈ later.dropLast, duty.belongs setting.environment.types group = false

/-- Rows go together without the bean and on it, if no later one passes over a violation. -/
theorem Holds.rows_together (holds : setting.Holds stop property value) {rows : List (List TypeKey)}
    {without ledger : Ledger} (beside : setting.Beside stop True without ledger)
    (unrepeated : setting.Unrepeated stop property rows)
    (free : ∀ row ∈ rows, ∀ group ∈ row.dropLast, ∀ duty ∈ stop.metadata.dutiesOf property,
      duty.belongs setting.environment.types group = true → setting.Violated stop duty →
        ledger.claimed stop.bean duty.place = false) :
    Alike (setting.Beside stop True)
      (Entry.each (Entry.upToFirst (setting.sweepValue stop.metadata property value)) rows without)
      (Entry.each (Entry.upToFirst (setting.sweepProperty stop property)) rows ledger) := by
  induction rows generalizing without ledger with
  | nil => exact .ok beside
  | cons row rest ih =>
    obtain ⟨apart, unrepeated⟩ := List.pairwise_cons.mp unrepeated
    have together := holds.row_together beside (free row List.mem_cons_self)
    rw [Entry.each, Entry.each, Run.bind_apply, Run.bind_apply]
    cases examined : Entry.upToFirst (setting.sweepProperty stop property) row ledger with
    | error error after =>
      rw [examined] at together
      generalize Entry.upToFirst (setting.sweepValue stop.metadata property value) row without
        = result at together ⊢
      cases together with
      | error => exact .error error _ _
    | ok _ after =>
      rw [examined] at together
      generalize Entry.upToFirst (setting.sweepValue stop.metadata property value) row without
        = result at together ⊢
      cases together with
      | ok beside =>
        refine ih beside unrepeated fun other member group early duty own belongs violated => ?_
        have before := free other (List.mem_cons_of_mem _ member) group early duty own belongs violated
        by_contra known
        rcases claimed_of_row examined own (by simpa using known) with claimed | asked
        · rw [before] at claimed
          cases claimed
        · rw [apart other member duty own violated asked group early] at belongs
          cases belongs

/-- **On a bean the constraints of a property go as far as on the value alone**, where no sequence
passes over a violation. -/
theorem Holds.callProperty_alike (holds : setting.Holds stop property value) {groups : Groups}
    (unrepeated : setting.Unrepeated stop property (groups.rows stop.metadata)) :
    Alike (setting.Beside stop True)
      (setting.callValue stop.metadata property value groups .blank)
      (setting.callProperty stop property groups .blank) := by
  rw [callProperty_eq_rows, callValue_eq_rows]
  refine holds.rows_together ⟨Ledger.settled_blank, nofun, nofun⟩ unrepeated ?_
  exact fun _ _ _ _ duty _ _ _ => Ledger.claimed_blank stop.bean duty.place

end Setting

/-! ### Calls -/

section Calls

variable {validator : Validator} {heap : Heap}

/-- **Validating a value agrees with validating the property of a bean that holds it.**  Where the
call on the bean succeeds, the one on the value succeeds too and finds nothing else, up to the bean.
Where no sequence passes over a violation that is known, both fail alike, and find the same. -/
theorem validateValue_agrees (allowing : validator.resolver = .default) (ref : BeanRef)
    {metadata : MetaBean} (built : validator.cache.configuration.build ref.type = .ok metadata)
    {property : MetaProperty} (member : property ∈ metadata.properties)
    (parses : Path.parse property.name = .ok (Path.root.add property.name)) {value : Value}
    (reads : ∀ node ∈ property.constraints, ∀ access, node.content.access = some access →
      access.read heap (.bean ref) = .ok value) (requested : List TypeKey) :
    let given := validator.validateValue heap ref.type property.name value requested
    let onBean := validator.validateProperty heap (.bean ref) property.name requested
    match validator.groups? requested with
    | .error error => given.failure = some error ∧ onBean.failure = some error
    | .ok groups =>
      (onBean.failure = none → given.failure = none
        ∧ ∀ violation ∈ given.heard, violation ∈ onBean.heard.map Violation.beanless)
      ∧ ((validator.setting heap (.bean ref) (some metadata)).Unrepeated
            ⟨.bean ref, metadata, .root⟩ property (groups.rows metadata) →
          given.failure = onBean.failure
          ∧ (onBean.failure = none → ∀ violation,
            violation ∈ given.heard ↔ violation ∈ onBean.heard.map Violation.beanless)) := by
  intro given onBean
  have wellFormed := Configuration.build_wellFormed built
  let setting := validator.setting heap (.bean ref) (some metadata)
  have cleared : setting.Cleared (.bean ref) ⟨.bean ref, metadata, .root⟩ := .start rfl built
  have showsGiven : given.Shows _ :=
    validateValue_shows allowing built member (.bean ref) value requested
  have showsOnBean : onBean.Shows _ :=
    validateProperty_shows_of_parse built cleared member parses requested
  cases asks : validator.groups? requested with
  | error error =>
    rw [asks] at showsGiven showsOnBean
    exact ⟨showsGiven.1, showsOnBean.1⟩
  | ok groups =>
    rw [asks] at showsGiven showsOnBean
    have holds : setting.Holds ⟨.bean ref, metadata, .root⟩ property value :=
      ⟨allowing, rfl, rfl, wellFormed, member, reads⟩
    refine ⟨fun succeeded => ?_, fun unrepeated => ?_⟩
    · obtain ⟨ledger, ran, heard, -⟩ := showsOnBean.of_success succeeded
      rcases (holds.callProperty_outlasts groups).follows .blank .blank ledger
        ⟨Ledger.settled_blank, nofun, nofun⟩ ran with ⟨later, ranGiven, beside, -⟩ | ⟨never, -⟩
      · have shows : given.Shows (.ok () later) := ranGiven ▸ showsGiven
        refine ⟨shows.1, fun violation found => ?_⟩
        rw [shows.2.1, List.mem_reverse] at found
        rw [heard, List.map_reverse, List.mem_reverse]
        exact beside.found violation found
      · exact never.elim
    · have alike := holds.callProperty_alike unrepeated
      replace showsGiven : given.Shows (setting.callValue metadata property value groups .blank) :=
        showsGiven
      replace showsOnBean : onBean.Shows
        (setting.callProperty ⟨.bean ref, metadata, .root⟩ property groups .blank) := showsOnBean
      generalize setting.callValue metadata property value groups .blank = result at alike showsGiven
      generalize setting.callProperty ⟨.bean ref, metadata, .root⟩ property groups .blank = shown
        at alike showsOnBean
      cases alike with
      | error error without ledger =>
        refine ⟨showsGiven.1.trans showsOnBean.1.symm, fun succeeded => ?_⟩
        rw [showsOnBean.1] at succeeded
        cases succeeded
      | ok beside =>
        refine ⟨showsGiven.1.trans showsOnBean.1.symm, fun _ violation => ?_⟩
        rw [showsGiven.2.1, showsOnBean.2.1, List.map_reverse, List.mem_reverse, List.mem_reverse]
        refine ⟨beside.found violation, fun heard => ?_⟩
        obtain ⟨original, reported, rfl⟩ := List.mem_map.mp heard
        exact beside.complete trivial original reported

end Calls

/-! ### In the ring -/

namespace Ring

/-- Whether a violation is that of a constraint of the second group. -/
def ofExtra (violation : Violation) : Bool :=
  match violation.constraint with
  | some (.mk _ _ groups _ _ _ _) => groups.contains extra
  | none => false

/-- What is known of the name of a node: its constraints read it on the first node, which has none. -/
theorem exists_name : ∃ metadata property, configuration.build node = .ok metadata
    ∧ property ∈ metadata.properties ∧ property.name = "name"
    ∧ ∀ node ∈ property.constraints, ∀ access, node.content.access = some access →
      access.read (heap .null .null) (.bean first) = .ok .null := by
  have known : ((configuration.build node).toOption.bind fun metadata =>
      metadata.properties.find? fun property => property.name == "name"
        && property.constraints.all fun node => node.content.access.all fun access =>
          (access.read (heap .null .null) (.bean first)).toOption.any (·.isNull)).isSome = true := by
    decide +kernel
  obtain ⟨property, found⟩ := Option.isSome_iff_exists.mp known
  obtain ⟨metadata, built, found⟩ := Option.bind_eq_some_iff.mp found
  have holds := List.find?_some found
  simp only [Bool.and_eq_true, beq_iff_eq, List.all_eq_true] at holds
  refine ⟨metadata, property, eq_ok_of_toOption built, List.mem_of_find?_eq_some found, holds.1, ?_⟩
  intro node member access way
  have reads := holds.2 node member
  rw [way, Option.all_some] at reads
  cases read : access.read (heap .null .null) (.bean first) with
  | error error => simp [read, Except.toOption] at reads
  | ok value =>
    cases value <;> first | rfl | simp [read, Except.toOption, Value.isNull] at reads

end Ring

/-- In the ring a sequence stops for the name of a node as it stops for the missing name itself. -/
theorem validateValue_agrees_ring :
    let given := Ring.validator.validateValue (Ring.heap .null .null) Ring.node "name" .null
      [Ring.ordered]
    let onBean := Ring.validator.validateProperty (Ring.heap .null .null) (.bean Ring.first) "name"
      [Ring.ordered]
    given.failure = none ∧ onBean.failure = none
      ∧ ∀ violation, violation ∈ given.heard ↔ violation ∈ onBean.heard.map Violation.beanless := by
  intro given onBean
  obtain ⟨metadata, property, built, member, named, reads⟩ := Ring.exists_name
  have parses : Path.parse property.name = .ok (Path.root.add property.name) := by
    rw [named]
    decide +kernel
  have allowing : Ring.validator.resolver = .default := rfl
  have agrees := validateValue_agrees allowing Ring.first built member parses reads [Ring.ordered]
  rw [named] at agrees
  have asked : (Ring.validator.groups? [Ring.ordered]).toOption
      = some ⟨[], [[Ring.basic, Ring.extra]]⟩ := by decide +kernel
  rw [eq_ok_of_toOption asked] at agrees
  obtain ⟨-, together⟩ := agrees
  -- There is one row only, so there is no earlier one that it could pass over.
  obtain ⟨failures, heard⟩ := together (List.pairwise_singleton _ _)
  have succeeded : onBean.failure = none := Option.isNone_iff_eq_none.mp (by decide +kernel)
  exact ⟨failures.trans succeeded, succeeded, heard succeeded⟩

/-- **On a bean a sequence may go on where it stops for the value alone**: the plain group before it
has reported the missing name of the node, so the sequence passes over it and goes on. -/
theorem validateValue_differs :
    let given := Ring.validator.validateValue (Ring.heap .null .null) Ring.node "name" .null
      [Ring.basic, Ring.ordered]
    let onBean := Ring.validator.validateProperty (Ring.heap .null .null) (.bean Ring.first) "name"
      [Ring.basic, Ring.ordered]
    given.failure = none ∧ onBean.failure = none
      ∧ ∃ violation ∈ onBean.heard, violation.beanless ∉ given.heard := by
  have known : (Ring.validator.validateValue (Ring.heap .null .null) Ring.node "name" .null
        [Ring.basic, Ring.ordered]).failure.isNone = true
      ∧ (Ring.validator.validateProperty (Ring.heap .null .null) (.bean Ring.first) "name"
        [Ring.basic, Ring.ordered]).failure.isNone = true
      ∧ (Ring.validator.validateProperty (Ring.heap .null .null) (.bean Ring.first) "name"
        [Ring.basic, Ring.ordered]).heard.any (fun violation => Ring.ofExtra violation.beanless) = true
      ∧ (Ring.validator.validateValue (Ring.heap .null .null) Ring.node "name" .null
        [Ring.basic, Ring.ordered]).heard.any Ring.ofExtra = false := by
    decide +kernel
  obtain ⟨succeededGiven, succeededOnBean, onBean, given⟩ := known
  refine ⟨Option.isNone_iff_eq_none.mp succeededGiven, Option.isNone_iff_eq_none.mp succeededOnBean, ?_⟩
  obtain ⟨violation, heard, isExtra⟩ := List.any_eq_true.mp onBean
  exact ⟨violation, heard, fun heardGiven => List.any_eq_false.mp given _ heardGiven isExtra⟩

end GraphValidation
