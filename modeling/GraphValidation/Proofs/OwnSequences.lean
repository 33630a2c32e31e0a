/-
**Under the default group each bean goes by its own sequence.**

A type may redefine its default group as a sequence of groups.  A validation for the default group
goes through the sequence of each bean that it comes to, up to the first group in which a constraint
of the bean is violated.  What is violated elsewhere does not matter: the sequence of a bean is over
before the pass goes on, so between its groups nothing but constraints of the bean are evaluated.

* `Setting.Reaches` — a group of a sequence, before which nothing was violated.
* `Setting.Through`, `Setting.through_of_ok` — **what a bean goes through**, whatever the ledger holds
  of others.
* `Setting.Toured`, `Setting.toured_of_ok` — what a pass goes through.
* `Outcome.ByDefault` — what a call for the default group shows.
* `perform_by_default` — **so it is for every validation of a graph**.
-/
import GraphValidation.Proofs.DefaultSequences
import GraphValidation.Proofs.Descent
import GraphValidation.Proofs.Fresh
import GraphValidation.Proofs.Rows
import GraphValidation.Proofs.Tracing
import GraphValidation.Proofs.Whereabouts

namespace GraphValidation

namespace Setting

variable {setting : Setting} {stop other : Stop} {group : TypeKey} {groups rest : List TypeKey}

/-! ### Groups up to a violation -/

/-- A constraint of a group is violated at a stop. -/
def ViolatedIn (setting : Setting) (stop : Stop) (group : TypeKey) : Prop :=
  ∃ duty ∈ stop.metadata.duties, duty.belongs setting.environment.types group = true
    ∧ setting.Violated stop duty

/-- A group is one of some groups, and no constraint is violated at the stop in those before it. -/
def Reaches (setting : Setting) (stop : Stop) (groups : List TypeKey) (group : TypeKey) : Prop :=
  ∃ before after, groups = before ++ group :: after
    ∧ ∀ earlier ∈ before, ¬ setting.ViolatedIn stop earlier

theorem not_reaches_nil : ¬ setting.Reaches stop [] group := by
  rintro ⟨before, after, same, -⟩
  cases before <;> cases same

theorem reaches_cons {first : TypeKey} :
    setting.Reaches stop (first :: rest) group
      ↔ group = first ∨ ¬ setting.ViolatedIn stop first ∧ setting.Reaches stop rest group := by
  constructor
  · rintro ⟨before, after, same, flawless⟩
    cases before with
    | nil =>
      cases same
      exact .inl rfl
    | cons earlier before =>
      cases same
      exact .inr ⟨flawless _ List.mem_cons_self, before, after, rfl,
        fun other member => flawless other (List.mem_cons_of_mem _ member)⟩
  · rintro (rfl | ⟨flawless, before, after, rfl, flawlessRest⟩)
    · exact ⟨[], rest, rfl, nofun⟩
    · exact ⟨first :: before, after, rfl, List.forall_mem_cons.mpr ⟨flawless, flawlessRest⟩⟩

/-! ### One bean -/

/-- What is added at a stop that goes through groups, after others in which nothing was violated. -/
structure Through (setting : Setting) (stop : Stop) (known groups : List TypeKey)
    (added : List Event) : Prop where
  sound : ∀ event ∈ added, ∃ group, setting.Reaches stop groups group
    ∧ ∃ duty ∈ stop.metadata.duties, event ∈ setting.evaluations group stop duty
  complete : ∀ group, setting.Reaches stop groups group → ∀ duty ∈ stop.metadata.duties,
    duty.belongs setting.environment.types group = true →
      (∃ before ∈ known, duty.belongs setting.environment.types before = true)
        ∨ setting.Evaluated added stop duty

theorem SparesOthers.trans {bean : Value} {ledger between later : Ledger}
    (first : SparesOthers bean ledger between) (second : SparesOthers bean between later) :
    SparesOthers bean ledger later :=
  fun other elsewhere apart => (second other elsewhere apart).trans (first other elsewhere apart)

theorem reaches_singleton {first : TypeKey} : setting.Reaches stop [first] group ↔ group = first := by
  rw [reaches_cons, or_iff_left fun later => not_reaches_nil later.2]

/-- Where a group is violated, a stop goes through none of those after it. -/
theorem Through.stopping {known : List TypeKey} {first : TypeKey} {added : List Event}
    (through : setting.Through stop known [first] added) (violated : setting.ViolatedIn stop first) :
    setting.Through stop known (first :: rest) added where
  sound := by
    intro event member
    obtain ⟨group, reaches, evaluated⟩ := through.sound event member
    exact ⟨group, reaches_cons.mpr (.inl (reaches_singleton.mp reaches)), evaluated⟩
  complete := by
    intro group reaches
    rcases reaches_cons.mp reaches with isFirst | ⟨flawless, -⟩
    · exact through.complete group (reaches_singleton.mpr isFirst)
    · exact absurd violated flawless

/-- Where a group is not violated, a stop goes on with those after it. -/
theorem Through.going {known : List TypeKey} {first : TypeKey} {here later : List Event}
    (through : setting.Through stop known [first] here) (flawless : ¬ setting.ViolatedIn stop first)
    (onward : setting.Through stop (first :: known) rest later) :
    setting.Through stop known (first :: rest) (later ++ here) where
  sound := by
    intro event member
    rcases List.mem_append.mp member with after | now
    · obtain ⟨group, reaches, evaluated⟩ := onward.sound event after
      exact ⟨group, reaches_cons.mpr (.inr ⟨flawless, reaches⟩), evaluated⟩
    · obtain ⟨group, reaches, evaluated⟩ := through.sound event now
      exact ⟨group, reaches_cons.mpr (.inl (reaches_singleton.mp reaches)), evaluated⟩
  complete := by
    intro group reaches duty own belongs
    have ofFirst := fun belongs =>
      (through.complete first (reaches_singleton.mpr rfl) duty own belongs).imp_right
        fun evaluated => evaluated.mono fun deed => List.mem_append_right later
    rcases reaches_cons.mp reaches with rfl | ⟨-, reachesRest⟩
    · exact ofFirst belongs
    · rcases onward.complete group reachesRest duty own belongs with
        ⟨before, earlier, belongsBefore⟩ | evaluated
      · rcases List.mem_cons.mp earlier with rfl | earlier
        · exact ofFirst belongsBefore
        · exact .inl ⟨before, earlier, belongsBefore⟩
      · exact .inr (evaluated.mono fun deed => List.mem_append_left _)

section Sweeping

variable {known : List TypeKey} {ledger later : Ledger}
  (swept : setting.Swept group stop stop.metadata.duties ledger later)
  (claims : ∀ duty ∈ stop.metadata.duties, ledger.claimed stop.bean duty.place = true →
    ∃ before ∈ known, duty.belongs setting.environment.types before = true)

include swept claims

/-- A sweep reports if its group is violated: what it passes over belongs to groups that are not. -/
theorem Swept.reports_iff_violatedIn
    (flawless : ∀ before ∈ known, ¬ setting.ViolatedIn stop before) :
    ledger.reported.length < later.reported.length ↔ setting.ViolatedIn stop group := by
  rw [swept.reports_iff]
  constructor
  · rintro ⟨duty, fresh, violated⟩
    obtain ⟨own, belongs, -⟩ := mem_fresh.mp fresh
    exact ⟨duty, own, belongs, violated⟩
  · rintro ⟨duty, own, belongs, violated⟩
    refine ⟨duty, mem_fresh.mpr ⟨own, belongs, Bool.eq_false_iff.mpr fun claimed => ?_⟩, violated⟩
    obtain ⟨before, earlier, belongsBefore⟩ := claims duty own claimed
    exact flawless before earlier ⟨duty, own, belongsBefore, violated⟩

/-- A sweep goes through its group. -/
theorem Swept.through (allowing : setting.environment.resolver = .default) :
    setting.Through stop known [group] ((setting.fresh group stop ledger stop.metadata.duties).flatMap
      (setting.evaluations group stop)).reverse where
  sound := by
    intro event member
    obtain ⟨duty, fresh, evaluated⟩ := List.mem_flatMap.mp (List.mem_reverse.mp member)
    exact ⟨group, reaches_singleton.mpr rfl, duty, (mem_fresh.mp fresh).1, evaluated⟩
  complete := by
    intro within reaches duty own belongs
    obtain rfl := reaches_singleton.mp reaches
    cases claimed : ledger.claimed stop.bean duty.place with
    | true => exact .inl (claims duty own claimed)
    | false =>
      have fresh := mem_fresh.mpr ⟨own, belongs, claimed⟩
      obtain ⟨below, places, -⟩ := findings_places allowing (swept.flawless duty fresh)
      refine .inr ⟨within, List.mem_reverse.mpr (List.mem_flatMap.mpr
        ⟨duty, fresh, mem_evaluations.mpr ⟨belongs, ?_⟩⟩)⟩
      rw [places]
      exact List.mem_cons_self

/-- What is known after a sweep belongs to its group, or was known before. -/
theorem Swept.claims_cons (nodup : (stop.metadata.duties.map (·.place)).Nodup) :
    ∀ duty ∈ stop.metadata.duties, later.claimed stop.bean duty.place = true →
      ∃ before ∈ group :: known, duty.belongs setting.environment.types before = true := by
  intro duty own claimed
  rcases (swept.claims duty.place).mp claimed with before | ⟨-, another, others, belongs, same⟩
  · obtain ⟨before, earlier, belongs⟩ := claims duty own before
    exact ⟨before, List.mem_cons_of_mem _ earlier, belongs⟩
  · have one : another = duty := List.inj_on_of_nodup_map nodup others own same
    exact ⟨group, List.mem_cons_self, one ▸ belongs⟩

end Sweeping

/-- **What a bean goes through.**  It is known from the constraints of the bean alone how far. -/
theorem through_of_ok (allowing : setting.environment.resolver = .default)
    (nodup : (stop.metadata.duties.map (·.place)).Nodup) {known : List TypeKey}
    (flawless : ∀ before ∈ known, ¬ setting.ViolatedIn stop before) {ledger later : Ledger}
    (claims : ∀ duty ∈ stop.metadata.duties, ledger.claimed stop.bean duty.place = true →
      ∃ before ∈ known, duty.belongs setting.environment.types before = true)
    (succeeded : Entry.upToFirst (setting.sweep stop) groups ledger = .ok () later) :
    ∃ added, later.deeds = added ++ ledger.deeds ∧ setting.Through stop known groups added
      ∧ SparesOthers stop.bean ledger later := by
  -- By induction on the groups that are left.  What the ledger knows of the bean belongs to groups
  -- in which nothing was violated, so passing over it hides no violation.
  induction groups generalizing known ledger with
  | nil =>
    cases succeeded
    exact ⟨[], rfl, ⟨List.forall_mem_nil _, fun _ reaches => absurd reaches not_reaches_nil⟩,
      fun _ _ _ => rfl⟩
  | cons first rest ih =>
    obtain ⟨between, sweeps, ends⟩ := Entry.upToFirst_eq_ok succeeded
    have swept : setting.Swept first stop stop.metadata.duties ledger between :=
      swept_of_ok nodup sweeps
    have through := swept.through claims allowing
    have reports := swept.reports_iff_violatedIn claims flawless
    rcases ends with ⟨grown, rfl⟩ | ⟨silent, ends⟩
    · exact ⟨_, swept.deeds, through.stopping (reports.mp grown), swept.spares⟩
    · have flawlessFirst : ¬ setting.ViolatedIn stop first := silent ∘ reports.mpr
      obtain ⟨added, deeds, onward, spares⟩ :=
        ih (List.forall_mem_cons.mpr ⟨flawlessFirst, flawless⟩) (swept.claims_cons claims nodup) ends
      refine ⟨added ++ _, ?_, through.going flawlessFirst onward, swept.spares.trans spares⟩
      rw [deeds, swept.deeds, List.append_assoc]

/-! ### One pass -/

/-- A stop is validated in its row of groups. -/
theorem validateStop_eq_row (group : TypeKey) (stop : Stop) :
    setting.validateStop group stop
      = Entry.upToFirst (setting.sweep stop) (stop.metadata.row group) :=
  Entry.forDefault_eq_row stop.metadata (setting.sweep stop) group

/-- The groups that a stop goes through under the default group. -/
def GoesThrough (setting : Setting) (stop : Stop) (group : TypeKey) : Prop :=
  setting.Reaches stop (stop.metadata.row .defaultGroup) group

/-- What a pass under the default group adds: it comes to all of its stops, and each of them goes
through its own groups. -/
structure Toured (setting : Setting) (stops : List (Except ValidationError Stop))
    (added : List Event) : Prop where
  flawless : ∀ error, .error error ∉ stops
  enters : ∀ stop, .ok stop ∈ stops → .entered stop.bean stop.metadata stop.path ∈ added
  sound : ∀ event ∈ added, ∃ stop, .ok stop ∈ stops
    ∧ (event = .entered stop.bean stop.metadata stop.path
      ∨ ∃ group, setting.GoesThrough stop group
        ∧ ∃ duty ∈ stop.metadata.duties, event ∈ setting.evaluations group stop duty)
  complete : ∀ stop, .ok stop ∈ stops → ∀ group, setting.GoesThrough stop group →
    ∀ duty ∈ stop.metadata.duties, duty.belongs setting.environment.types group = true →
      setting.Evaluated added stop duty

/-- A pass that comes to a stop first, and tours the other ones then. -/
theorem Toured.cons {stops : List (Except ValidationError Stop)} {here there : List Event}
    (through : setting.Through stop [] (stop.metadata.row .defaultGroup) here)
    (toured : setting.Toured stops there) :
    setting.Toured (.ok stop :: stops)
      (there ++ (here ++ [.entered stop.bean stop.metadata stop.path])) where
  flawless := by
    intro error member
    rcases List.mem_cons.mp member with same | member
    · cases same
    · exact toured.flawless error member
  enters := by
    intro other member
    rcases List.mem_cons.mp member with same | member
    · cases same
      simp
    · exact List.mem_append_left _ (toured.enters other member)
  sound := by
    intro event member
    rcases List.mem_append.mp member with member | member
    · obtain ⟨other, inside, origin⟩ := toured.sound event member
      exact ⟨other, List.mem_cons_of_mem _ inside, origin⟩
    · refine ⟨stop, List.mem_cons_self, ?_⟩
      rcases List.mem_append.mp member with evaluated | entered
      · exact .inr (through.sound event evaluated)
      · exact .inl (List.mem_singleton.mp entered)
  complete := by
    intro other member group passes duty own belongs
    rcases List.mem_cons.mp member with same | member
    · cases same
      rcases through.complete group passes duty own belongs with ⟨_, none, -⟩ | evaluated
      · cases none
      · exact evaluated.mono fun deed done =>
          List.mem_append_right _ (List.mem_append_left _ done)
    · exact (toured.complete other member group passes duty own belongs).mono
        fun deed => List.mem_append_left _

/-- **What a pass goes through**, from a ledger that knows none of its beans. -/
theorem toured_of_ok (allowing : setting.environment.resolver = .default)
    {stops : List (Except ValidationError Stop)} (nodup : (idsOf stops).Nodup)
    (duties : ∀ stop, .ok stop ∈ stops → (stop.metadata.duties.map (·.place)).Nodup)
    {ledger later : Ledger}
    (new : ∀ stop, .ok stop ∈ stops → ∀ place, ledger.claimed stop.bean place = false)
    (succeeded : setting.pass stops .defaultGroup ledger = .ok () later) :
    ∃ added, later.deeds = added ++ ledger.deeds ∧ setting.Toured stops added := by
  induction stops generalizing ledger with
  | nil =>
    cases succeeded
    exact ⟨[], rfl, nofun, nofun, List.forall_mem_nil _, nofun⟩
  | cons start rest ih =>
    unfold pass at succeeded ih
    rw [Entry.each] at succeeded
    obtain ⟨between, visited, ends⟩ := Entry.andThen_eq_ok succeeded
    cases start with
    | error error =>
      rw [visit_error] at visited
      cases visited
    | ok stop =>
      rw [visit_ok, validateStop_eq_row] at visited
      obtain ⟨arrived, arrives, goes⟩ := Entry.andThen_eq_ok visited
      have unclaimed : ∀ place, arrived.claimed stop.bean place = false := by
        cases arrives
        exact new stop List.mem_cons_self
      obtain ⟨here, deedsHere, through, spares⟩ := through_of_ok allowing
        (duties stop List.mem_cons_self) (List.forall_mem_nil _)
        (fun duty _ claimed => absurd claimed (Bool.eq_false_iff.mp (unclaimed duty.place))) goes
      cases arrives
      -- No bean is a stop twice, so what the stop claims is not what the other ones ask for.
      have newRest : ∀ other, .ok other ∈ rest → ∀ place,
          between.claimed other.bean place = false := by
        intro other member place
        rw [spares other.bean place fun id known same => apart_of_nodup nodup member id same known]
        exact new other (List.mem_cons_of_mem _ member) place
      obtain ⟨there, deedsThere, toured⟩ := ih (nodup_idsOf_rest nodup)
        (fun other member => duties other (List.mem_cons_of_mem _ member)) newRest ends
      refine ⟨_, ?_, toured.cons through⟩
      rw [deedsThere, deedsHere]
      simp

/-- A pass that has toured its stops has entered these, and no other ones. -/
theorem Toured.entered_iff {stops : List (Except ValidationError Stop)} {added : List Event}
    (toured : setting.Toured stops added) :
    .entered stop.bean stop.metadata stop.path ∈ added ↔ .ok stop ∈ stops := by
  refine ⟨fun entered => ?_, toured.enters stop⟩
  obtain ⟨other, isOther, same | ⟨group, -, duty, -, evaluated⟩⟩ := toured.sound _ entered
  · injection same with beans metadata paths
    have one : stop = other := by
      cases stop
      cases other
      simp only [Stop.mk.injEq]
      exact ⟨beans, metadata, paths⟩
    exact one ▸ isOther
  · obtain ⟨_, -, same⟩ := List.mem_map.mp (mem_evaluations.mp evaluated).2
    cases same

/-- A stop is known by its bean, its metadata, and the path of one of its sites. -/
theorem stop_eq_of_site {property : Option String} (beans : stop.bean = other.bean)
    (metadata : stop.metadata = other.metadata)
    (paths : (setting.site stop property).path = (setting.site other property).path) :
    stop = other := by
  have same : stop.path = other.path := by
    cases property with
    | none => exact paths
    | some name =>
      have removed := congrArg Path.removeLeaf paths
      simp only [site, Path.removeLeaf_add] at removed
      exact removed
  cases stop
  cases other
  simp only [Stop.mk.injEq]
  exact ⟨beans, metadata, same⟩

/-- **At a stop of a pass the constraints that are evaluated are those of the groups that it goes
through.** -/
theorem Toured.evaluated_iff {stops : List (Except ValidationError Stop)} {added : List Event}
    (toured : setting.Toured stops added) (orderly : Orderly stops) (typed : Typed stops)
    (isStop : .ok stop ∈ stops) {duty : Duty} (own : duty ∈ stop.metadata.duties) :
    setting.Evaluated added stop duty ↔ ∃ group, setting.GoesThrough stop group
      ∧ duty.belongs setting.environment.types group = true := by
  constructor
  · rintro ⟨within, done⟩
    obtain ⟨other, isOther, entered | ⟨group, passes, another, others, evaluated⟩⟩ :=
      toured.sound _ done
    · cases entered
    · obtain ⟨belongs, inside⟩ := mem_evaluations.mp evaluated
      obtain ⟨rfl, -, beans, paths⟩ := eq_of_evaluated orderly typed isStop isOther own others inside
      have types : stop.metadata.type = other.metadata.type := by
        rw [← MetaBean.place_type_of_mem_duties own, ← MetaBean.place_type_of_mem_duties others]
      obtain rfl := stop_eq_of_site beans (typed stop isStop other isOther types) paths
      exact ⟨group, passes, belongs⟩
  · rintro ⟨group, passes, belongs⟩
    exact toured.complete stop isStop group passes duty own belongs

end Setting

/-! ### Calls -/

/-- A call has come to a stop. -/
def Outcome.Enters (outcome : Outcome) (stop : Stop) : Prop :=
  .entered stop.bean stop.metadata stop.path ∈ outcome.journal

/-- A call has come to a start: to this very stop, or to the bean at it in another way. -/
def Outcome.ComesTo (outcome : Outcome) (start : Except ValidationError Stop) : Prop :=
  ∃ stop, start = .ok stop ∧ (outcome.Enters stop ∨ ∃ other, outcome.Enters other
    ∧ ∃ id, Setting.idAt (.ok stop) = some id ∧ Setting.idAt (.ok other) = some id)

/-- What a call for the default group shows.  It comes to all that its stops lead to, whatever it
finds there, and evaluates at each of them the constraints of its own groups, up to the first group in
which one of these is violated. -/
structure Outcome.ByDefault (outcome : Outcome) (setting : Setting)
    (starts : List (Except ValidationError Stop)) : Prop where
  begins : ∀ start ∈ starts, outcome.ComesTo start
  once : ∀ stop other, outcome.Enters stop → outcome.Enters other → ∀ id,
    Setting.idAt (.ok stop) = some id → Setting.idAt (.ok other) = some id → stop = other
  cascades : ∀ stop, outcome.Enters stop → ∀ next ∈ setting.onward stop, outcome.ComesTo next
  evaluates : ∀ stop, outcome.Enters stop → ∀ duty ∈ stop.metadata.duties,
    (setting.Evaluated outcome.journal stop duty ↔ ∃ group, setting.GoesThrough stop group
      ∧ duty.belongs setting.environment.types group = true)
  nothingElse : ∀ bean path group place, .evaluated bean path group place ∈ outcome.journal →
    ∃ stop, outcome.Enters stop ∧ setting.GoesThrough stop group ∧ stop.bean = bean
      ∧ ∃ duty ∈ stop.metadata.duties, duty.belongs setting.environment.types group = true
        ∧ (setting.site stop duty.place.property).path = path
        ∧ (place = duty.place ∨ duty.place.Above place)
  reports : ∀ violation, violation ∈ outcome.heard ↔ ∃ stop, outcome.Enters stop
    ∧ ∃ duty ∈ stop.metadata.duties, setting.Evaluated outcome.journal stop duty
      ∧ violation ∈ (setting.findings stop duty).violations

/-- The root of a validation of a graph. -/
def Validation.graphRoot? : Validation → Option Value
  | graph root _ => some root
  | graphAs root _ _ => some root
  | graphById root _ _ => some root
  | property .. => none
  | value .. => none

section Calls

variable {validator : Validator} {heap : Heap} {validation : Validation} {root : Value}
  {metadata : Option MetaBean}

/-- A validation of a graph that succeeds has found the metadata of its root. -/
theorem exists_task_of_success (explores : validation.graphRoot? = some root)
    (asks : ∀ group ∈ validation.requested, group = .defaultGroup)
    (succeeded : (validator.perform heap validation).failure = none) :
    ∃ metadata, validator.task? heap validation = .ok (.graph root metadata .defaultOnly) := by
  rw [Validator.perform_eq_by] at succeeded
  obtain ⟨cache, -, performed⟩ := performBy_eq validator heap validation
  rw [performed] at succeeded
  cases found : validator.task? heap validation with
  | error error =>
    rw [found] at succeeded
    cases succeeded
  | ok task =>
    have resolved : validator.groups? validation.requested = .ok .defaultOnly :=
      Validator.groups?_of_default asks
    have task := Validator.task?_eq_ok found
    cases validation with
    | graph given requested =>
      obtain ⟨metadata, groups, -, granted, rfl⟩ := task
      cases explores
      cases granted.symm.trans resolved
      exact ⟨metadata, rfl⟩
    | graphAs given type requested =>
      obtain ⟨metadata, groups, -, granted, rfl⟩ := task
      cases explores
      cases granted.symm.trans resolved
      exact ⟨some metadata, rfl⟩
    | graphById given id requested =>
      obtain ⟨metadata, groups, -, granted, rfl⟩ := task
      cases explores
      cases granted.symm.trans resolved
      exact ⟨some metadata, rfl⟩
    | property => cases explores
    | value => cases explores

/-- Where the resolver allows everything, every validation of a graph shows the run over the stops of
its pass. -/
theorem perform_shows_by_default {groups : Groups} (allowing : validator.resolver = .default)
    (found : validator.task? heap validation = .ok (.graph root metadata groups)) :
    (validator.perform heap validation).Shows
      ((validator.setting heap root metadata).call
        ((validator.setting heap root metadata).itinerary root metadata) groups .blank) := by
  have consistent : (validator.setting heap root metadata).Consistent fun _ => True := by
    intro first second _ _ kind question _
    have resolver : (validator.setting heap root metadata).environment.resolver = .default := allowing
    simp only [Setting.answer, resolver, Resolver.default]
  rw [Validator.perform_eq_by]
  obtain ⟨cache, alike, performed⟩ := performBy_eq validator heap validation
  rw [performed, found]
  exact graph_shows groups alike consistent fun _ _ => ⟨fun _ => trivial, fun _ _ _ => trivial⟩

/-- The stops of a task are those of types, and each bean is one of them once. -/
theorem orderly_of_task {groups : Groups}
    (found : validator.task? heap validation = .ok (.graph root metadata groups)) :
    Setting.Orderly ((validator.setting heap root metadata).itinerary root metadata)
      ∧ Setting.Typed ((validator.setting heap root metadata).itinerary root metadata) := by
  let setting := validator.setting heap root metadata
  have built : ∀ stop, .ok stop ∈ setting.itinerary root metadata →
      ∃ type, validator.cache.configuration.build type = .ok stop.metadata :=
    Setting.itinerary_built (built_of_task found)
  refine ⟨⟨setting.itinerary_nodup root metadata, fun stop isStop => ?_⟩,
    fun stop isStop other isOther types => ?_⟩
  · obtain ⟨type, ofStop⟩ := built stop isStop
    exact MetaBean.duties_nodup (Configuration.build_wellFormed ofStop)
  · obtain ⟨type, ofStop⟩ := built stop isStop
    obtain ⟨another, ofOther⟩ := built other isOther
    rw [Configuration.build_type ofStop, Configuration.build_type ofOther] at types
    rw [types, ofOther] at ofStop
    exact (Except.ok.inj ofStop).symm

/-- **A call that shows a tour of its stops goes by their own sequences**, if the pass has come to
whatever these lead to. -/
theorem byDefault_of_toured {setting : Setting} {stops starts : List (Except ValidationError Stop)}
    {outcome : Outcome} {ledger : Ledger} (orderly : Setting.Orderly stops)
    (typed : Setting.Typed stops) (exhausts : setting.Exhausts starts (Setting.idsOf stops, stops))
    (toured : setting.Toured stops ledger.deeds) (traced : ledger.Traced setting stops)
    (heard : outcome.heard = ledger.reported.reverse)
    (shown : outcome.journal.filter Event.isDeed = ledger.deeds.reverse) :
    outcome.ByDefault setting starts := by
  have enters : ∀ stop, outcome.Enters stop ↔ .ok stop ∈ stops := fun stop =>
    (Setting.mem_journal_iff shown rfl).trans toured.entered_iff
  have done : ∀ stop duty, setting.Evaluated outcome.journal stop duty
      ↔ setting.Evaluated ledger.deeds stop duty := fun stop duty => Setting.evaluated_iff shown
  have comes : ∀ {start}, Setting.ComesTo (Setting.idsOf stops, stops) start →
      outcome.ComesTo start := by
    rintro start (listed | ⟨id, known, same⟩)
    · cases start with
      | error error => exact absurd listed (toured.flawless error)
      | ok stop => exact ⟨stop, rfl, .inl ((enters stop).mpr listed)⟩
    · obtain ⟨other, inside, idOther⟩ := List.mem_filterMap.mp known
      cases start with
      | error error => cases same
      | ok stop =>
        cases other with
        | error error => cases idOther
        | ok other =>
          exact ⟨stop, rfl, .inr ⟨other, (enters other).mpr inside, id, same, idOther⟩⟩
  constructor
  case begins => exact fun start begins => comes (exhausts.starts start begins)
  case once =>
    intro stop other entered enteredOther id idStop idOther
    exact Setting.stop_eq_of_id orderly.beans ((enters stop).mp entered)
      ((enters other).mp enteredOther) idStop idOther
  case cascades =>
    exact fun stop entered next leads =>
      comes (exhausts.onward stop ((enters stop).mp entered) next leads)
  case evaluates =>
    intro stop entered duty own
    exact (done stop duty).trans
      (toured.evaluated_iff orderly typed ((enters stop).mp entered) own)
  case nothingElse =>
    intro bean path group place evaluated
    obtain ⟨stop, isStop, entered | ⟨within, passes, duty, own, evaluates⟩⟩ :=
      toured.sound _ ((Setting.mem_journal_iff shown rfl).mp evaluated)
    · cases entered
    · obtain ⟨belongs, inside⟩ := Setting.mem_evaluations.mp evaluates
      obtain ⟨_, below, same⟩ := List.mem_map.mp inside
      cases same
      exact ⟨stop, (enters stop).mpr isStop, passes, rfl, duty, own, belongs, rfl,
        Setting.mem_places_findings below⟩
  case reports =>
    intro violation
    rw [heard, List.mem_reverse]
    constructor
    · intro reported
      obtain ⟨stop, isStop, duty, own, evaluated, finds⟩ := traced.found violation reported
      exact ⟨stop, (enters stop).mpr isStop, duty, own, (done stop duty).mpr evaluated, finds⟩
    · rintro ⟨stop, entered, duty, own, evaluated, finds⟩
      exact traced.told stop ((enters stop).mp entered) duty own ((done stop duty).mp evaluated)
        violation finds

/-- **Under the default group each bean goes by its own sequence**, and each cascade is followed. -/
theorem perform_by_default (allowing : validator.resolver = .default)
    (explores : validation.graphRoot? = some root)
    (asks : ∀ group ∈ validation.requested, group = .defaultGroup)
    (succeeded : (validator.perform heap validation).failure = none) :
    ∃ metadata, validator.task? heap validation = .ok (.graph root metadata .defaultOnly)
      ∧ (validator.perform heap validation).ByDefault (validator.setting heap root metadata)
        ((validator.setting heap root metadata).starts root metadata) := by
  obtain ⟨metadata, found⟩ := exists_task_of_success explores asks succeeded
  let setting := validator.setting heap root metadata
  let stops := setting.itinerary root metadata
  obtain ⟨orderly, typed⟩ := orderly_of_task found
  obtain ⟨ledger, ran, heard, shown⟩ :=
    (perform_shows_by_default allowing found).of_success succeeded
  have passed : setting.pass stops .defaultGroup .blank = .ok () ledger :=
    (Setting.call_of_plain setting stops .defaultGroup .blank) ▸ ran
  obtain ⟨added, deeds, toured⟩ := Setting.toured_of_ok allowing orderly.beans orderly.duties
    (fun stop _ place => Ledger.claimed_blank stop.bean place) passed
  have same : ledger.deeds = added := deeds.trans (List.append_nil added)
  exact ⟨metadata, found, byDefault_of_toured orderly typed (setting.itinerary_exhausts root metadata)
    (same ▸ toured) (Setting.call_traced allowing orderly typed ran) heard shown⟩

end Calls

/-- Two nodes that link to each other go through the sequence of their type each for itself: the names
of both are missing, which each of them reports in the same group, and no group after it. -/
theorem perform_by_default_ring :
    let validator := Ring.listing [Ring.node, Ring.basic, Ring.extra]
    let outcome := validator.perform (Ring.heap .null .null) (.graph (.bean Ring.first) [])
    outcome.failure = none
      ∧ outcome.heard.map (fun violation => violation.owner?) = [some "first", some "second"]
      ∧ ∃ metadata, outcome.ByDefault
          (validator.setting (Ring.heap .null .null) (.bean Ring.first) metadata)
          ((validator.setting (Ring.heap .null .null) (.bean Ring.first) metadata).starts
            (.bean Ring.first) metadata) := by
  intro validator outcome
  have allowing : validator.resolver = .default := rfl
  have succeeded : outcome.failure = none := Option.isNone_iff_eq_none.mp (by decide +kernel)
  obtain ⟨metadata, -, byDefault⟩ :=
    perform_by_default allowing rfl (List.forall_mem_nil _) succeeded
  exact ⟨succeeded, by decide +kernel, metadata, byDefault⟩

end GraphValidation
