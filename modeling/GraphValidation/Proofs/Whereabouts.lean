/-
**Where a call asks its questions.**

A pass asks about the properties of the beans that it enters, and those are the stops of its
itinerary.  A call for one property asks about that property alone, at the end of a path that it
follows without a question.

* `Site.Apart` — no two sites share a key; so it is for the properties of one bean, and for those
  at the stops of a pass.
* `Setting.graph_shows` — passes show their run, from any root with its metadata.
* `graph_encloses` — **what a pass enters are stops of its itinerary**.
* `navigate_reads` — following a path does nothing but read.
-/
import GraphValidation.Proofs.Asking

namespace GraphValidation

/-! ### Sites without a common key -/

/-- No two of these sites share a key. -/
def Site.Apart (asked : Site → Prop) : Prop :=
  ∀ first second, asked first → asked second → ∀ kind question,
    first.key kind question = second.key kind question → first = second

theorem Site.Apart.consistent {asked : Site → Prop} (apart : Site.Apart asked) (setting : Setting) :
    setting.Consistent asked :=
  fun _ _ isFirst isSecond kind question keys => by
    rw [apart _ _ isFirst isSecond kind question keys]

/-- The sites of the properties of a bean. -/
def Site.Under (site other : Site) : Prop := ∃ name, other = site.below name

theorem Site.apart_under (site : Site) : Site.Apart site.Under := by
  rintro _ _ ⟨name, rfl⟩ ⟨other, rfl⟩ kind question keys
  rw [Path.text_add_inj (congrArg AnswerKey.path keys)]

theorem Setting.apart_at_stops {setting : Setting} {root : Value} {metadata : Option MetaBean}
    (off : setting.environment.mapsLikeBeans = false) :
    Site.Apart (setting.PropertySites (setting.itinerary root metadata)) :=
  fun _ _ isFirst isSecond _ _ keys => site_eq_of_key off isFirst isSecond keys

/-! ### What passes enter -/

/-- A call enters nothing but its stops. -/
theorem Setting.mem_stops_of_entered {setting : Setting}
    {stops : List (Except ValidationError Stop)} (groups : Groups) {bean : Value}
    {metadata : MetaBean} {path : Path}
    (entered : .entered bean metadata path ∈ ((setting.call stops groups).after .blank).deeds) :
    .ok ⟨bean, metadata, path⟩ ∈ stops := by
  let listed := fun ledger : Ledger => ∀ bean metadata path,
    .entered bean metadata path ∈ ledger.deeds → .ok ⟨bean, metadata, path⟩ ∈ stops
  have keeps : (setting.call stops groups).Keeps listed listed := by
    refine call_keeps groups (fun _ holds => holds) (fun stop member ledger holds => ?_) ?_
    · intro bean metadata path inside
      rcases List.mem_cons.mp inside with new | old
      · cases new
        exact member
      · exact holds bean metadata path old
    · intro stop member group duty own
      have examined : ∀ ledger, listed ledger →
          listed (setting.examined group stop duty ledger) := by
        intro ledger holds bean metadata path inside
        rw [deeds_examined] at inside
        rcases List.mem_append.mp inside with new | old
        · obtain ⟨_, -, evaluated⟩ := List.mem_map.mp (List.mem_reverse.mp new)
          cases evaluated
        · exact holds bean metadata path old
      exact examine_keeps (fun ledger holds _ _ _ => examined ledger holds) examined
  have nothing : listed .blank := fun _ _ _ none => absurd none List.not_mem_nil
  exact keeps.after nothing bean metadata path entered

/-- The journal of a task that is carried out, the last event first. -/
def Validator.journalOf (validator : Validator) (heap : Heap) (task : Task)
    (cache : MetadataCache) : List Event :=
  ((task.program (validator.environment heap) (Run.fetch (validator.environment heap))).after
    (.ready cache task.rootType)).journal

theorem outcomeAt_journal (validator : Validator) (step : Run Unit) (context : Context) :
    (validator.outcomeAt (step context)).journal = (step.after context).journal.reverse := by
  unfold Run.after
  cases step context <;> rfl

/-- The journal of what shows a result enters what the result has entered. -/
theorem Outcome.Shows.entered {outcome : Outcome} {entry : Entry Unit} {ledger : Ledger}
    (shows : outcome.Shows (entry ledger)) {bean : Value} {metadata : MetaBean} {path : Path}
    (entered : .entered bean metadata path ∈ outcome.journal) :
    .entered bean metadata path ∈ (entry.after ledger).deeds := by
  have deeds : outcome.journal.filter Event.isDeed = (entry.after ledger).deeds.reverse := by
    unfold Entry.after
    generalize entry ledger = result at shows
    cases result with
    | ok _ later => exact shows.2.2
    | error error later => exact shows.2.2
  rw [← List.mem_reverse, ← deeds]
  exact List.mem_filter.mpr ⟨entered, rfl⟩

section Graphs

variable {validator : Validator} {heap : Heap} {validation : Validation} {root : Value}
  {metadata : Option MetaBean} {groups : Groups} {cache : MetadataCache}

theorem built_of_metadata? {type : TypeKey} {own : MetaBean}
    (known : validator.metadata? type = .ok own) :
    validator.cache.configuration.build type = .ok own := by
  unfold Validator.metadata? at known
  cases result : validator.cache.configuration.build type with
  | ok metadata =>
    rw [result] at known
    cases known
    rfl
  | error error =>
    rw [result] at known
    cases known

/-- The metadata that a call has found for its root is that of a type. -/
theorem built_of_task
    (found : validator.task? heap validation = .ok (.graph root metadata groups)) :
    ∀ own, metadata = some own → ∃ type, validator.cache.configuration.build type = .ok own := by
  rintro own rfl
  have task := Validator.task?_eq_ok found
  cases validation with
  | graph root requested =>
    obtain ⟨_, _, known, -, same⟩ := task
    cases same
    exact ⟨_, (rootMetadata?_eq_some known).2⟩
  | graphAs root type requested =>
    obtain ⟨_, _, known, -, same⟩ := task
    cases same
    exact ⟨_, built_of_metadata? known⟩
  | graphById root id requested =>
    obtain ⟨_, _, known, -, same⟩ := task
    cases same
    unfold Validator.metadataOfId? at known
    split at known
    · exact ⟨_, built_of_metadata? known⟩
    · cases known
  | property root path requested =>
    obtain ⟨_, _, _, -, -, -, same⟩ := task
    cases same
  | value type name given requested =>
    obtain ⟨_, _, -, -, same⟩ := task
    cases same

/-- **The passes of a task show their run.** -/
theorem graph_shows {asked : Site → Prop} (groups : Groups)
    (alike : cache.configuration = validator.cache.configuration)
    (consistent : (validator.setting heap root metadata).Consistent asked)
    (asks : ∀ stop, .ok stop ∈ (validator.setting heap root metadata).itinerary root metadata →
      (validator.setting heap root metadata).AsksWithin asked stop) :
    (validator.outcomeAt
        ((Task.graph root metadata groups).program (validator.environment heap)
          (Run.fetch (validator.environment heap))
          (.ready cache (Validator.rootTypeOf root metadata)))).Shows
      ((validator.setting heap root metadata).call
        ((validator.setting heap root metadata).itinerary root metadata) groups .blank) := by
  have resting : (validator.setting heap root metadata).Resting asked
      (.ready cache (Validator.rootTypeOf root metadata)) :=
    ⟨.defaultGroup, starting_stands alike, rfl⟩
  have conducts := validateBeanOver_follows consistent nowhere_follows
    (Engine.levels (validator.environment heap) root)
  have same : (Task.graph root metadata groups).program (validator.environment heap)
        (Run.fetch (validator.environment heap))
      = Engine.forEachGroup groups (Engine.passBy (validator.environment heap)
        (Engine.validateBeanOver (validator.environment heap) (fun _ _ => pure ())
          (Engine.levels (validator.environment heap) root)) root metadata) := by
    rw [← validateBean_eq_over, Engine.validateBean_eq_by]
    rfl
  rw [same]
  exact outcomeAt_shows (passes_track conducts root metadata groups asks resting)

/-- **What a pass enters are stops of its itinerary**, so it asks about their properties. -/
theorem graph_encloses
    (found : validator.task? heap validation = .ok (.graph root metadata groups))
    (alike : cache.configuration = validator.cache.configuration)
    (consistent : (validator.setting heap root metadata).Consistent
      ((validator.setting heap root metadata).PropertySites
        ((validator.setting heap root metadata).itinerary root metadata))) :
    (validator.setting heap root metadata).Encloses
      ((validator.setting heap root metadata).PropertySites
        ((validator.setting heap root metadata).itinerary root metadata))
      (validator.journalOf heap (.graph root metadata groups) cache) := by
  have asks : ∀ stop, .ok stop ∈ (validator.setting heap root metadata).itinerary root metadata →
      (validator.setting heap root metadata).AsksWithin
        ((validator.setting heap root metadata).PropertySites
          ((validator.setting heap root metadata).itinerary root metadata)) stop := by
    intro stop member
    obtain ⟨type, built⟩ := Setting.itinerary_built (built_of_task found) stop member
    exact Setting.asksWithin_propertySites (Configuration.build_wellFormed built) member
  intro bean own path entered
  have shows := graph_shows groups alike consistent asks
  have listed : .entered bean own path ∈ (validator.outcomeAt
      ((Task.graph root metadata groups).program (validator.environment heap)
        (Run.fetch (validator.environment heap))
        (.ready cache (Validator.rootTypeOf root metadata)))).journal := by
    rw [outcomeAt_journal]
    exact List.mem_reverse.mpr entered
  exact asks _ (Setting.mem_stops_of_entered groups (shows.entered listed))

end Graphs

/-! ### Following a path -/

/-- Whether something was read. -/
def Event.isRead : Event → Bool
  | read _ _ _ => true
  | _ => false

/-- A memory that differs from an earlier one in what was read since, and in the metadata that is
kept. -/
structure Memory.Reading (start memory : Memory) : Prop where
  answers : memory.answers = start.answers
  configuration : memory.cache.configuration = start.cache.configuration
  journal : ∃ reads, (∀ event ∈ reads, Event.isRead event = true)
    ∧ memory.journal = reads ++ start.journal

/-- One engine that reads and asks nothing. -/
def Sides.reading (setting : Setting) (start : Memory) : Sides where
  setting
  asked _ := True
  first := Run.fetch setting.environment
  second := Run.fetch setting.environment
  related memory other := memory = other ∧ start.Reading memory

theorem Sides.reading_consulting (setting : Setting) (start : Memory) :
    (Sides.reading setting start).Consulting where
  builds related type := by rw [related.1]
  consults := by
    rintro memory _ ⟨rfl, reading⟩ type
    exact ⟨rfl, { reading with
      configuration := (MetadataCache.get_snd_configuration _ _).trans reading.configuration }⟩

theorem Sides.reading_notesReads (setting : Setting) (start : Memory) :
    (Sides.reading setting start).NotesReads := by
  rintro memory _ ⟨rfl, reading⟩ holder access path
  obtain ⟨reads, areReads, journal⟩ := reading.journal
  refine ⟨rfl, { reading with journal := ⟨.read holder access path :: reads, ?_, ?_⟩ }⟩
  · intro event member
    rcases List.mem_cons.mp member with rfl | member
    · rfl
    · exact areReads event member
  · exact congrArg (Event.read holder access path :: ·) journal

section Navigating

variable (setting : Setting) (bean : Value) (metadata : MetaBean) (walked : Path)
  (nodes : List Path.Node) (context : Context)

theorem navigate_keeps :
    (Sides.reading setting context.memory).Keeps context.site
      (Engine.navigate setting.environment bean metadata walked nodes)
      (Engine.navigate setting.environment bean metadata walked nodes) :=
  (Sides.reading_consulting setting context.memory).navigate
    (Sides.reading_notesReads setting context.memory) bean metadata walked nodes

theorem navigate_reads :
    context.memory.Reading
      ((Engine.navigate setting.environment bean metadata walked nodes).after context).memory := by
  have start : context.memory.Reading context.memory := ⟨rfl, rfl, [], List.forall_mem_nil _, rfl⟩
  obtain ⟨_, -, left⟩ := (navigate_keeps setting bean metadata walked nodes context).after rfl
    ⟨rfl, start⟩ (setting.encloses_everything _)
  exact left

/-- **Following a path does nothing but read**: it fails, or comes back to where a call starts,
without an answer. -/
theorem navigate_of_ready (cache : MetadataCache) (type : TypeKey) :
    ∃ reads, (∀ event ∈ reads, Event.isRead event = true)
      ∧ ((∃ error later, Engine.navigate setting.environment bean metadata walked nodes
            (.ready cache type) = .error error later ∧ later.journal = reads)
        ∨ ∃ arrived later, Engine.navigate setting.environment bean metadata walked nodes
            (.ready cache type) = .ok arrived later
          ∧ later.site = ⟨some type, .null, .root, none⟩ ∧ later.answers = []
          ∧ later.journal = reads) := by
  let start := Context.ready cache type
  obtain ⟨unasked, -, reads, areReads, journal⟩ :=
    navigate_reads setting bean metadata walked nodes start
  have journal := journal.trans (List.append_nil reads)
  refine ⟨reads, areReads, ?_⟩
  cases followed : Engine.navigate setting.environment bean metadata walked nodes start with
  | ok arrived later =>
    rw [Run.after_of_ok followed] at journal unasked
    have stays := (navigate_keeps setting bean metadata walked nodes start).goes.arrives start
      arrived later rfl followed
    exact .inr ⟨arrived, later, rfl, stays, unasked, journal⟩
  | error error later =>
    rw [Run.after_of_error followed] at journal
    exact .inl ⟨error, later, rfl, journal⟩

end Navigating

/-! ### Single properties -/

/-- A memory of nothing that was entered. -/
def Memory.Unentered (memory : Memory) : Prop :=
  ∀ bean metadata path, .entered bean metadata path ∉ memory.journal

theorem Memory.Unentered.noting {memory : Memory} (unentered : memory.Unentered)
    {events : List Event} (none : ∀ bean metadata path, .entered bean metadata path ∉ events) :
    (memory.noting events).Unentered := by
  intro bean metadata path member
  rcases List.mem_append.mp member with new | old
  · exact none bean metadata path new
  · exact unentered bean metadata path old

theorem Memory.Unentered.of_reads {memory : Memory}
    (areReads : ∀ event ∈ memory.journal, Event.isRead event = true) : memory.Unentered := by
  intro bean metadata path member
  cases areReads _ member

/-- One engine that enters nothing. -/
def Sides.unentered (setting : Setting) : Sides where
  setting
  asked _ := True
  first := Run.fetch setting.environment
  second := Run.fetch setting.environment
  related memory other := memory = other ∧ memory.Unentered

theorem Sides.unentered_evaluating (setting : Setting) : (Sides.unentered setting).Evaluating where
  builds related type := by rw [related.1]
  consults := by
    rintro memory _ ⟨rfl, unentered⟩ type
    exact ⟨rfl, unentered⟩
  evaluates := by
    rintro memory _ ⟨rfl, unentered⟩ bean path group places
    refine ⟨rfl, unentered.noting fun _ _ _ member => ?_⟩
    obtain ⟨_, -, evaluated⟩ := List.mem_map.mp member
    cases evaluated
  goes := fetch_goes setting
  fetches access site _ := by
    have single : ∀ {memory : Memory} {event : Event}, memory.Unentered →
        (∀ bean metadata path, Event.entered bean metadata path ≠ event) →
          (memory.noting [event]).Unentered := fun unentered other =>
      unentered.noting fun bean metadata path member =>
        other bean metadata path (List.mem_singleton.mp member)
    refine Sides.fetchAsking (fun question => ⟨ask_goes setting question access.kind, ?_⟩) ?_
    · rintro context memory _ - ⟨rfl, unentered⟩ -
      rw [ask_recalling]
      unfold Memory.ask
      split
      · exact .ok _ context ⟨rfl, unentered⟩
      · split
        · exact .ok _ context ⟨rfl, single unentered fun _ _ _ same => by cases same⟩
        · exact .error _ context ⟨rfl, single unentered fun _ _ _ same => by cases same⟩
    · rintro memory _ ⟨rfl, unentered⟩ holder access path
      exact ⟨rfl, single unentered fun _ _ _ same => by cases same⟩

/-- Where a path has led to from a site: to a bean, or nowhere. -/
def Site.arrival (site : Site) : Option (Value × MetaBean × Path) → Site
  | some (bean, _, walked) => ⟨site.rootType, bean, walked, none⟩
  | none => site

theorem Site.under_arrival (site : Site) (arrived : Option (Value × MetaBean × Path)) :
    ∀ bean metadata walked, arrived = some (bean, metadata, walked) →
      ∀ name,
        (site.arrival arrived).Under (Site.below ⟨site.rootType, bean, walked, none⟩ name) := by
  rintro bean metadata walked rfl name
  exact ⟨name, rfl⟩

section Single

variable {setting : Setting} (asked : Site → Prop)

/-- What enters nothing asks no questions of a bean. -/
theorem Sides.Leads.encloses {pre post : Site → Prop} {step : Run Unit} {context : Context}
    (leads : (Sides.unentered setting).Leads pre post step step) (here : pre context.site)
    (unentered : context.memory.Unentered) :
    setting.Encloses asked (step.after context).journal := by
  obtain ⟨_, -, left⟩ := leads.after here ⟨rfl, unentered⟩ (setting.encloses_everything _)
  exact fun bean metadata path entered => absurd entered (left bean metadata path)

theorem arrived_encloses (node : Path.Node) (groups : Groups)
    (arrived : Option (Value × MetaBean × Path)) {context : Context}
    (unentered : context.memory.Unentered) :
    setting.Encloses asked ((Engine.validateArrivedBy setting.environment
      (Run.fetch setting.environment) node groups arrived).after context).journal :=
  ((Sides.unentered_evaluating setting).validateArrivedBy node groups arrived
    fun _ _ _ _ _ => trivial).encloses asked rfl unentered

theorem value_encloses (metadata : MetaBean) (name : String) (given : Value) (groups : Groups)
    {context : Context} (unentered : context.memory.Unentered) :
    setting.Encloses asked ((Engine.validatePropertyValueBy setting.environment
      (Run.fetch setting.environment) metadata name given groups).after context).journal :=
  ((Sides.unentered_evaluating setting).validatePropertyValueBy metadata name given groups
    fun _ => trivial).encloses asked rfl unentered

end Single

end GraphValidation
