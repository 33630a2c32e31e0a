/-
**A validation explores the graph of its root.**

For one plain group, where no type redefines the default group and the resolver allows everything, a
validation comes to an end by itself; where it succeeds, it has entered the beans that can be reached
from its root, each once, and has evaluated the constraints of the group on each of them, once.

* `Outcome.Explores` — the journal of such a validation.
* `explores_of_plan` — the stops of a plan that succeeds are explored.
* `validate_explores` — **a validation explores the graph of its root**, with however many levels.
-/
import GraphValidation.Proofs.DepthFirst
import GraphValidation.Proofs.Requests
import GraphValidation.Proofs.Sweeps

namespace GraphValidation

/-! ### Journals -/

/-- The bean that was entered, with the metadata that it was entered with. -/
def Event.entry? : Event → Option (BeanRef × MetaBean)
  | .entered bean metadata _ => bean.bean?.map fun ref => (ref, metadata)
  | _ => none

/-- Whether the constraint at a place was evaluated on a bean. -/
def Event.evaluates (id : String) (place : NodePlace) : Event → Bool
  | .evaluated bean _ _ other => bean.bean?.map (·.id) == some id && other == place
  | _ => false

/-- The beans that a call entered, in order, with their metadata. -/
def Outcome.listed (outcome : Outcome) : List (BeanRef × MetaBean) :=
  outcome.journal.filterMap Event.entry?

/-- A call for a group has explored the graph of a root. -/
structure Outcome.Explores (outcome : Outcome) (configuration : Configuration) (heap : Heap)
    (root : Value) (group : TypeKey) : Prop where
  /-- The beans are entered depth first, with the metadata that their finders ask for. -/
  search : DepthFirst configuration heap [] (root.beans.map (Lead.mk .dynamic)) outcome.listed
  /-- No bean is entered twice. -/
  nodup : (outcome.listed.map (·.1.id)).Nodup
  /-- The beans that are entered are those that can be reached. -/
  reached : ∀ id, id ∈ outcome.listed.map (·.1.id) ↔ Reached heap root outcome.listed id
  /-- Nothing but beans is entered. -/
  beans : ∀ bean metadata path, .entered bean metadata path ∈ outcome.journal →
    ∃ ref, bean = .bean ref ∧ (ref, metadata) ∈ outcome.listed
  /-- On each of them each constraint of the group is evaluated once. -/
  once : ∀ ref metadata, (ref, metadata) ∈ outcome.listed → ∀ duty ∈ metadata.duties,
    duty.belongs configuration.types group →
      outcome.journal.countP (Event.evaluates ref.id duty.place) = 1
  /-- Nothing else is evaluated: only constraints of the group, and what they are composed of. -/
  only : ∀ bean path within place, .evaluated bean path within place ∈ outcome.journal → within = group
    ∧ ∃ ref metadata, bean = .bean ref ∧ (ref, metadata) ∈ outcome.listed
      ∧ ∃ duty ∈ metadata.duties, duty.belongs configuration.types group
        ∧ (place = duty.place ∨ duty.place.Above place)

/-! ### Counting -/

/-- What one element alone contributes to, once, is counted once. -/
theorem countP_flatMap_eq_one {α β : Type} {part : α → List β} {counted : β → Bool} {items : List α}
    {a : α} (apart : items.Pairwise fun first second =>
      (part first).countP counted = 0 ∨ (part second).countP counted = 0)
    (member : a ∈ items) (here : (part a).countP counted = 1) :
    (items.flatMap part).countP counted = 1 := by
  induction items with
  | nil => cases member
  | cons first rest ih =>
    obtain ⟨alone, apart⟩ := List.pairwise_cons.mp apart
    rw [List.flatMap_cons, List.countP_append]
    cases member with
    | head =>
      have nowhere : (rest.flatMap part).countP counted = 0 := by
        rw [List.countP_eq_zero]
        intro item inside
        obtain ⟨other, isRest, inside⟩ := List.mem_flatMap.mp inside
        refine List.countP_eq_zero.mp ((alone other isRest).resolve_left ?_) item inside
        rw [here]
        exact Nat.one_ne_zero
      rw [here, nowhere]
    | tail _ later =>
      have none : (part first).countP counted = 0 := by
        refine (alone a later).resolve_right ?_
        rw [here]
        exact Nat.one_ne_zero
      rw [none, ih apart later]

/-- The place of a duty is a position in a list of constraints. -/
theorem MetaBean.positions_of_mem_duties {metadata : MetaBean} {duty : Duty}
    (member : duty ∈ metadata.duties) : ∃ position, duty.place.positions = [position] := by
  rcases List.mem_append.mp member with ofProperty | own
  · obtain ⟨property, -, member⟩ := List.mem_flatMap.mp ofProperty
    obtain ⟨-, -, -, position, -, positions⟩ := mem_dutiesFrom member
    exact ⟨position, positions⟩
  · obtain ⟨-, -, -, position, -, positions⟩ := mem_dutiesFrom own
    exact ⟨position, positions⟩

/-- No duty has its place below that of another one. -/
theorem MetaBean.not_above_of_mem_duties {metadata : MetaBean} {first second : Duty}
    (isFirst : first ∈ metadata.duties) (isSecond : second ∈ metadata.duties) :
    ¬ first.place.Above second.place := by
  rintro ⟨-, -, more, some, same⟩
  obtain ⟨position, ofFirst⟩ := positions_of_mem_duties isFirst
  obtain ⟨other, ofSecond⟩ := positions_of_mem_duties isSecond
  rw [ofFirst, ofSecond] at same
  cases more with
  | nil => exact some rfl
  | cons next rest => cases same

namespace Setting

variable {setting : Setting} {group : TypeKey} {stop : Stop}

theorem of_mem_evaluations {duty : Duty} {event : Event}
    (member : event ∈ setting.evaluations group stop duty) :
    duty.belongs setting.environment.types group ∧ ∃ path place,
      event = .evaluated stop.bean path group place ∧ (place = duty.place ∨ duty.place.Above place) := by
  obtain ⟨belongs, evaluated⟩ := mem_evaluations.mp member
  obtain ⟨place, inside, rfl⟩ := List.mem_map.mp evaluated
  exact ⟨belongs, _, place, rfl, mem_places_findings inside⟩

theorem mem_deedsAt {event : Event} (member : event ∈ setting.deedsAt group stop) :
    event = .entered stop.bean stop.metadata stop.path ∨ ∃ duty ∈ stop.metadata.duties,
      duty.belongs setting.environment.types group ∧ ∃ path place,
        event = .evaluated stop.bean path group place ∧ (place = duty.place ∨ duty.place.Above place) := by
  cases member with
  | head => exact .inl rfl
  | tail _ later =>
    obtain ⟨duty, own, inside⟩ := List.mem_flatMap.mp later
    exact .inr ⟨duty, own, of_mem_evaluations inside⟩

theorem mem_deedsOf {stops : List (Except ValidationError Stop)} {event : Event}
    (member : event ∈ stops.flatMap (setting.deedsOf group)) :
    ∃ stop, .ok stop ∈ stops ∧ event ∈ setting.deedsAt group stop := by
  obtain ⟨stop, inside, member⟩ := List.mem_flatMap.mp member
  cases stop with
  | ok stop => exact ⟨stop, inside, member⟩
  | error error => cases member

theorem countP_evaluations_self (allowing : setting.environment.resolver = .default)
    {ref : BeanRef} (isBean : stop.bean.bean? = some ref) {duty : Duty}
    (belongs : duty.belongs setting.environment.types group = true)
    (succeeded : (setting.findings stop duty).failure = none) :
    (setting.evaluations group stop duty).countP (Event.evaluates ref.id duty.place) = 1 := by
  obtain ⟨rest, places, below⟩ := findings_places allowing succeeded
  rw [evaluations, if_pos belongs, places, List.map_cons,
    List.countP_cons_of_pos (by simp [Event.evaluates, isBean])]
  have nowhere : (rest.map (Event.evaluated stop.bean
      (setting.site stop duty.place.property).path group)).countP
      (Event.evaluates ref.id duty.place) = 0 := by
    rw [List.countP_eq_zero]
    intro event inside again
    obtain ⟨other, later, rfl⟩ := List.mem_map.mp inside
    simp only [Event.evaluates, Bool.and_eq_true, beq_iff_eq] at again
    have above := below other later
    rw [again.2] at above
    exact duty.place.not_above_self above
  rw [nowhere]

theorem countP_evaluations_of_ne {duty other : Duty} (own : duty ∈ stop.metadata.duties)
    (isOther : other ∈ stop.metadata.duties) (different : duty.place ≠ other.place) (id : String) :
    (setting.evaluations group stop duty).countP (Event.evaluates id other.place) = 0 := by
  rw [List.countP_eq_zero]
  intro event inside again
  obtain ⟨-, path, place, rfl, within⟩ := of_mem_evaluations inside
  simp only [Event.evaluates, Bool.and_eq_true, beq_iff_eq] at again
  rw [again.2] at within
  cases within with
  | inl same => exact different same.symm
  | inr above => exact MetaBean.not_above_of_mem_duties own isOther above

/-- **At a stop that succeeds each duty of the group is evaluated once.** -/
theorem countP_deedsAt (allowing : setting.environment.resolver = .default) (plain : Plain stop)
    (flawless : ∀ duty ∈ stop.metadata.duties, duty.belongs setting.environment.types group →
      (setting.findings stop duty).failure = none)
    {ref : BeanRef} (isBean : stop.bean.bean? = some ref) {duty : Duty}
    (own : duty ∈ stop.metadata.duties)
    (belongs : duty.belongs setting.environment.types group = true) :
    (setting.deedsAt group stop).countP (Event.evaluates ref.id duty.place) = 1 := by
  rw [deedsAt, List.countP_cons_of_neg (by simp [Event.evaluates])]
  refine countP_flatMap_eq_one ?_ own
    (countP_evaluations_self allowing isBean belongs (flawless duty own belongs))
  refine (List.pairwise_map.mp plain.duties).imp_of_mem fun {first second} isFirst isSecond apart => ?_
  by_cases same : first.place = duty.place
  · exact .inr (countP_evaluations_of_ne isSecond own (fun again => apart (same.trans again.symm)) _)
  · exact .inl (countP_evaluations_of_ne isFirst own same _)

theorem countP_deedsOf_of_ne {stop : Except ValidationError Stop} {id : String}
    (different : idAt stop ≠ some id) (place : NodePlace) :
    (setting.deedsOf group stop).countP (Event.evaluates id place) = 0 := by
  rw [List.countP_eq_zero]
  intro event inside counted
  cases stop with
  | error error => cases inside
  | ok stop =>
    rcases mem_deedsAt inside with rfl | ⟨duty, own, -, path, other, rfl, -⟩
    · simp [Event.evaluates] at counted
    · simp only [Event.evaluates, Bool.and_eq_true, beq_iff_eq] at counted
      exact different counted.1

/-- **At the stops of a pass that succeeds each duty of the group is evaluated once.** -/
theorem countP_deedsOf (allowing : setting.environment.resolver = .default)
    {stops : List (Except ValidationError Stop)} (nodup : (idsOf stops).Nodup)
    (member : .ok stop ∈ stops) (plain : Plain stop)
    (flawless : ∀ duty ∈ stop.metadata.duties, duty.belongs setting.environment.types group →
      (setting.findings stop duty).failure = none)
    {ref : BeanRef} (isBean : stop.bean.bean? = some ref) {duty : Duty}
    (own : duty ∈ stop.metadata.duties)
    (belongs : duty.belongs setting.environment.types group = true) :
    (stops.flatMap (setting.deedsOf group)).countP (Event.evaluates ref.id duty.place) = 1 := by
  refine countP_flatMap_eq_one ?_ member (countP_deedsAt allowing plain flawless isBean own belongs)
  refine (List.pairwise_filterMap.mp nodup).imp fun {first second} apart => ?_
  by_cases same : idAt first = some ref.id
  · refine .inr (countP_deedsOf_of_ne (fun again => ?_) _)
    exact apart ref.id same ref.id again rfl
  · exact .inl (countP_deedsOf_of_ne same _)

theorem filterMap_entry?_deeds (stops : List (Except ValidationError Stop)) :
    (stops.flatMap (setting.deedsOf group)).filterMap Event.entry? = entriesOf stops := by
  have silent : ∀ stop duty, (setting.evaluations group stop duty).filterMap Event.entry? = [] := by
    intro stop duty
    rw [List.filterMap_eq_nil_iff]
    intro event inside
    obtain ⟨-, path, place, rfl, -⟩ := of_mem_evaluations inside
    rfl
  have within : ∀ stop duties,
      (List.flatMap (setting.evaluations group stop) duties).filterMap Event.entry? = [] := by
    intro stop duties
    rw [List.filterMap_flatMap, List.flatMap_eq_nil_iff]
    exact fun duty _ => silent stop duty
  induction stops with
  | nil => rfl
  | cons first rest ih =>
    rw [List.flatMap_cons, List.filterMap_append, ih]
    cases first with
    | error error => rfl
    | ok stop =>
      simp only [deedsOf, deedsAt, List.filterMap_cons, within, entriesOf, Event.entry?]
      cases stop.bean.bean? <;> rfl

theorem mem_entriesOf {stops : List (Except ValidationError Stop)} {ref : BeanRef}
    {metadata : MetaBean} : (ref, metadata) ∈ entriesOf stops
      ↔ ∃ stop, .ok stop ∈ stops ∧ stop.bean.bean? = some ref ∧ stop.metadata = metadata := by
  unfold entriesOf
  rw [List.mem_filterMap]
  constructor
  · rintro ⟨stop, inside, same⟩
    cases stop with
    | error error => cases same
    | ok stop =>
      obtain ⟨found, isBean, same⟩ := Option.map_eq_some_iff.mp same
      cases same
      exact ⟨stop, inside, isBean, rfl⟩
  · rintro ⟨stop, inside, isBean, rfl⟩
    refine ⟨.ok stop, inside, ?_⟩
    simp [isBean]

end Setting

/-! ### Validations that explore -/

/-- The beans at the stops are those that a journal of their deeds lists. -/
theorem listed_of_deeds {setting : Setting} {group : TypeKey}
    {stops : List (Except ValidationError Stop)} {outcome : Outcome}
    (journal : outcome.journal.filter Event.isDeed = stops.flatMap (setting.deedsOf group)) :
    outcome.listed = Setting.entriesOf stops := by
  have deeds : Event.entry? = fun event => if event.isDeed then event.entry? else none := by
    funext event
    cases event <;> rfl
  have entries := @Setting.filterMap_entry?_deeds setting group stops
  rw [← journal, List.filterMap_filter, ← deeds] at entries
  exact entries

section Planned

variable {validator : Validator} {heap : Heap} {root : Value} {requested : List TypeKey}
  {plan : Plan} {group : TypeKey}

/-- From a bean or a container a pass comes to beans only. -/
theorem stops_are_beans (off : validator.mapsLikeBeans = false)
    (planned : validator.plan heap root requested = .ok plan)
    (beans : root.bean?.isSome ∨ (Engine.elements? (validator.environment heap) root).isSome) :
    ∀ stop, .ok stop ∈ plan.stops → stop.bean.bean?.isSome := by
  obtain ⟨metadata, groups, -, known, -, rfl⟩ := Validator.plan_eq_ok planned
  intro stop member
  cases isBean : stop.bean.bean? with
  | some ref => rfl
  | none =>
    have maps : (validator.setting heap root metadata).environment.mapsLikeBeans = false := off
    obtain ⟨own, rfl, rfl⟩ := Setting.root_of_other maps stop member isBean
    rw [isBean, (rootMetadata?_eq_some known).1] at beans
    exact beans.elim id id

/-- **What a validation for one plain group has done**, where it succeeds and no type redefines the
default group: it has entered the stops of its plan, none of them an error, and done the duties of
the group at each. -/
theorem journal_of_plain (off : validator.mapsLikeBeans = false)
    (inherits : ∀ type metadata, validator.cache.configuration.build type = .ok metadata →
      metadata.groupSequence = none)
    (beans : root.bean?.isSome ∨ (Engine.elements? (validator.environment heap) root).isSome)
    (planned : validator.plan heap root requested = .ok plan) (plain : plan.groups = ⟨[group], []⟩)
    (succeeded : (validator.validate heap root requested).failure = none) :
    (∀ error, .error error ∉ plan.stops)
      ∧ (∀ stop, .ok stop ∈ plan.stops → Setting.Plain stop ∧ ∀ duty ∈ stop.metadata.duties,
        duty.belongs plan.setting.environment.types group →
          (plan.setting.findings stop duty).failure = none)
      ∧ (validator.validate heap root requested).journal.filter Event.isDeed
        = plan.stops.flatMap (plan.setting.deedsOf group) := by
  have plainStops : ∀ stop, .ok stop ∈ plan.stops → Setting.Plain stop := by
    intro stop member
    obtain ⟨type, built⟩ := stops_built planned stop member
    exact ⟨stops_are_beans off planned beans stop member, inherits type _ built,
      MetaBean.duties_nodup (stops_wellFormed planned stop member)⟩
  have shows := validate_shows_on_beans off planned
  rw [Plan.run, plain, Setting.call_of_plain] at shows
  cases passed : plan.setting.pass plan.stops group .blank with
  | error error later =>
    rw [passed] at shows
    rw [shows.1] at succeeded
    cases succeeded
  | ok _ later =>
    rw [passed] at shows
    have unclaimed : ∀ stop, .ok stop ∈ plan.stops → ∀ place,
        Ledger.blank.claimed stop.bean place = false := by
      intro stop _ place
      unfold Ledger.claimed
      cases stop.bean.bean? <;> rfl
    obtain ⟨flawless, deeds, duties⟩ := Setting.pass_ok plainStops
      (plan.setting.itinerary_nodup plan.root plan.metadata) unclaimed passed
    refine ⟨flawless, fun stop member => ⟨plainStops stop member, duties stop member⟩, ?_⟩
    rw [shows.2.2, deeds]
    simp [Ledger.blank]

/-- **Such a validation explores the graph of its root.** -/
theorem explores_of_plan (off : validator.mapsLikeBeans = false)
    (allowing : validator.resolver = .default)
    (inherits : ∀ type metadata, validator.cache.configuration.build type = .ok metadata →
      metadata.groupSequence = none)
    (beans : root.bean?.isSome ∨ (Engine.elements? (validator.environment heap) root).isSome)
    (planned : validator.plan heap root requested = .ok plan) (plain : plan.groups = ⟨[group], []⟩)
    (succeeded : (validator.validate heap root requested).failure = none) :
    (validator.validate heap root requested).Explores validator.cache.configuration heap root
      group := by
  obtain ⟨flawless, duties, journal⟩ :=
    journal_of_plain off inherits beans planned plain succeeded
  have search := stops_depthFirst off allowing planned beans flawless
  have nodup : (Setting.idsOf plan.stops).Nodup :=
    plan.setting.itinerary_nodup plan.root plan.metadata
  have environment := environment_of_planned planned
  have default := resolver_of_planned allowing planned
  -- From here on only the deeds of the outcome matter, and those are known stop by stop.
  generalize validator.validate heap root requested = outcome at journal succeeded ⊢
  have deed : ∀ event, event ∈ outcome.journal → event.isDeed = true →
      ∃ stop, .ok stop ∈ plan.stops ∧ event ∈ plan.setting.deedsAt group stop := by
    intro event member isDeed
    have inside : event ∈ outcome.journal.filter Event.isDeed := List.mem_filter.mpr ⟨member, isDeed⟩
    rw [journal] at inside
    exact Setting.mem_deedsOf inside
  have listed := listed_of_deeds journal
  have isListed : ∀ stop ref, .ok stop ∈ plan.stops → stop.bean = .bean ref →
      (ref, stop.metadata) ∈ outcome.listed := by
    intro stop ref member isBean
    rw [listed]
    exact Setting.mem_entriesOf.mpr ⟨stop, member, by rw [isBean]; rfl, rfl⟩
  have beanAt : ∀ stop, .ok stop ∈ plan.stops → ∃ ref, stop.bean = .bean ref := by
    intro stop member
    obtain ⟨ref, isBean⟩ := Option.isSome_iff_exists.mp (duties stop member).1.bean
    exact ⟨ref, Value.eq_bean_of_bean? isBean⟩
  refine ⟨by rw [listed]; exact search, by rw [listed]; exact search.nodup.1, fun id => ?_, ?_, ?_, ?_⟩
  · rw [listed]
    exact search.listed_iff_reached id
  · intro bean metadata path member
    obtain ⟨stop, inside, event⟩ := deed _ member rfl
    obtain ⟨ref, isBean⟩ := beanAt stop inside
    rcases Setting.mem_deedsAt event with same | ⟨duty, -, -, path, place, same, -⟩
    · cases same
      exact ⟨ref, isBean, isListed stop ref inside isBean⟩
    · cases same
  · intro ref metadata member duty own belongs
    rw [listed] at member
    obtain ⟨stop, inside, isBean, rfl⟩ := Setting.mem_entriesOf.mp member
    have types : plan.setting.environment.types = validator.cache.configuration.types := by
      rw [environment]
      rfl
    have once := Setting.countP_deedsOf default nodup inside (duties stop inside).1
      (duties stop inside).2 isBean own (by rw [types]; exact belongs)
    rw [← journal, List.countP_filter] at once
    rw [← once]
    refine List.countP_congr fun event _ => ?_
    cases event <;> simp [Event.evaluates, Event.isDeed]
  · intro bean path within place member
    obtain ⟨stop, inside, event⟩ := deed _ member rfl
    obtain ⟨ref, isBean⟩ := beanAt stop inside
    rcases Setting.mem_deedsAt event with same | ⟨duty, own, belongs, path, place, same, below⟩
    · cases same
    · cases same
      rw [environment] at belongs
      exact ⟨rfl, ref, stop.metadata, isBean, isListed stop ref inside isBean, duty, own, belongs,
        below⟩

/-- **A validation explores the graph of its root**: for one plain group, with the default resolver
and without redefined default groups, it comes to an end by itself, however many levels it may have,
and where it succeeds it has entered the beans that can be reached, each once, and evaluated each
constraint of the group on each of them, once. -/
theorem validate_explores (off : validator.mapsLikeBeans = false)
    (allowing : validator.resolver = .default)
    (inherits : ∀ type metadata, validator.cache.configuration.build type = .ok metadata →
      metadata.groupSequence = none)
    (beans : root.bean?.isSome ∨ (Engine.elements? (validator.environment heap) root).isSome)
    (plain : group = .defaultGroup
      ∨ GroupRequest.sequenceOf validator.types validator.cache.configuration.groupSequence group
        = .ok none) :
    (∀ levels, Engine.levels (validator.environment heap) root ≤ levels → ∀ bottom,
        (validator.validateOver levels bottom heap root [group]).failure
            = (validator.validate heap root [group]).failure
          ∧ (validator.validateOver levels bottom heap root [group]).heard
            = (validator.validate heap root [group]).heard
          ∧ (validator.validateOver levels bottom heap root [group]).journal.filter Event.isDeed
            = (validator.validate heap root [group]).journal.filter Event.isDeed)
      ∧ ((validator.validate heap root [group]).failure = none →
        (validator.validate heap root [group]).Explores validator.cache.configuration heap root
          group) := by
  cases planned : validator.plan heap root [group] with
  | error error =>
    obtain ⟨failure, heard, journal⟩ := validate_of_unplanned planned
    refine ⟨fun levels _ bottom => ?_, fun succeeded => ?_⟩
    · obtain ⟨failureBelow, heardBelow, journalBelow⟩ := validateOver_of_unplanned planned levels bottom
      rw [failure, heard, journal, failureBelow, heardBelow, journalBelow]
      exact ⟨rfl, rfl, rfl⟩
    · rw [failure] at succeeded
      cases succeeded
  | ok plan =>
    refine ⟨fun levels enough bottom => ?_, fun succeeded => ?_⟩
    · have below := validateOver_shows_on_beans off planned enough bottom
      have shows := validate_shows_on_beans off planned
      exact below.alike shows
    · have isPlain := groups?_of_plain plain (groups?_of_planned planned)
      exact explores_of_plan off allowing inherits beans planned isPlain succeeded

end Planned

/-- A type does not redefine the default group where no declaration of a class does. -/
theorem Configuration.groupSequence_of_build {configuration : Configuration} {type : TypeKey}
    {metadata : MetaBean} (built : configuration.build type = .ok metadata)
    (inherits : configuration.types.isInterface type = true
      ∨ ∀ declaration ∈ configuration.declarationsFor type, declaration.groupSequence = none) :
    metadata.groupSequence = none := by
  rw [groupSequence_eq_of_build built]
  rcases inherits with isInterface | undeclared
  · rw [if_pos isInterface]
  · have silent : lastSome? (·.groupSequence) (configuration.declarationsFor type) = none := by
      unfold lastSome?
      rw [List.findSome?_eq_none_iff]
      exact fun declaration member => undeclared declaration (List.mem_reverse.mp member)
    rw [silent, ite_self]

/-- A ring of two nodes is explored. -/
theorem validate_explores_ring :
    let outcome := Ring.validator.validate (Ring.heap .null .null) (.bean Ring.first) [Ring.basic]
    outcome.Explores Ring.validator.cache.configuration (Ring.heap .null .null) (.bean Ring.first)
        Ring.basic
      ∧ outcome.listed.map (·.1) = [Ring.first, Ring.second] := by
  have inherits : ∀ type metadata, Ring.validator.cache.configuration.build type = .ok metadata →
      metadata.groupSequence = none := by
    intro type metadata built
    refine Configuration.groupSequence_of_build built ?_
    by_cases isOrdered : type = Ring.ordered
    · refine .inl ?_
      rw [isOrdered]
      decide
    · refine .inr fun declaration member => ?_
      have member : declaration ∈ Ring.configuration.declarationsFor type := member
      obtain ⟨registry, isRegistry, found⟩ :
          ∃ registry ∈ Ring.configuration.annotations, registry.get? type = some declaration := by
        simpa [Configuration.declarationsFor, Ring.configuration] using member
      rw [List.mem_singleton.mp isRegistry] at found
      cases List.mem_of_find?_eq_some found with
      | head => rfl
      | tail _ inside =>
        have named : (declaration.type == type) = true :=
          List.find?_some (p := fun bean : BeanDeclaration => bean.type == type) found
        rw [List.mem_singleton.mp inside] at named
        exact absurd (eq_of_beq named).symm isOrdered
  exact ⟨(validate_explores rfl rfl inherits (.inl rfl) (.inr rfl)).2
    (Option.isNone_iff_eq_none.mp (by decide +kernel)), by decide +kernel⟩

end GraphValidation
