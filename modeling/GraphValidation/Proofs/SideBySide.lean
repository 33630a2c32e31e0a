/-
**Two runs side by side.**

Two engines that fetch values in different ways, or remember different things, may still go through
a graph abreast: the same steps succeed or fail with the same results, and the contexts differ in
nothing but their memories, which stay related.  Whether they do can depend on where values are
fetched, and that is read off the journal: it only grows, so the journal of a call holds what every
context on the way has held.

* `Memory` — what a call remembers and has done: the part of a context that may differ.
* `Goes` — a step that only adds to the journal and leads from site to site.
* `Sides` — two ways of fetching and a relation between memories.
* `Sides.Leads` — two steps that stay abreast, with rules for sequencing.
* `Sides.onProperty`, `Sides.onBean`, `Sides.forEachGroup` — the steps that the engine is made of.
-/
import GraphValidation.Proofs.Tasks

namespace GraphValidation

/-! ### Memories and sites -/

/-- What a call remembers of answers and of types, and what it has done. -/
structure Memory where
  answers : List (AnswerKey × Bool)
  journal : List Event
  cache : MetadataCache

namespace Memory

/-- The memory after some more events, the last one first. -/
def noting (memory : Memory) (events : List Event) : Memory :=
  { memory with journal := events ++ memory.journal }

/-- The memory after it was asked for the metadata of a type. -/
def consulting (memory : Memory) (type : TypeKey) : Memory :=
  { memory with cache := (memory.cache.get type).2 }

end Memory

namespace Context

/-- What a context remembers. -/
def memory (context : Context) : Memory := ⟨context.answers, context.journal, context.cache⟩

/-- A context with another memory. -/
def recalling (context : Context) (memory : Memory) : Context :=
  { context with
    answers := memory.answers, journal := memory.journal, cache := memory.cache }

@[simp] theorem recalling_memory (context : Context) : context.recalling context.memory = context :=
  rfl

@[simp] theorem site_recalling (context : Context) (memory : Memory) :
    (context.recalling memory).site = context.site := rfl

end Context

/-- The site of a property below a site. -/
def Site.below (site : Site) (name : String) : Site :=
  { site with path := site.path.add name, property := some name }

/-- A site whose leaf is marked. -/
def Site.marked (site : Site) (mark : Path.Mark) : Site :=
  { site with path := site.path.markLeaf mark }

/-- Of the marks of a leaf the last one counts. -/
theorem Context.site_remarked {context : Context} {site : Site} {before : Path.Mark}
    (mark : Path.Mark) (here : context.site = site.marked before) :
    Context.site { context with path := context.path.markLeaf mark } = site.marked mark := by
  have rootType : context.rootType = site.rootType := congrArg Site.rootType here
  have bean : context.bean = site.bean := congrArg Site.bean here
  have path : context.path = site.path.markLeaf before := congrArg Site.path here
  have property : context.property = site.property := congrArg Site.property here
  simp only [Context.site, rootType, bean, path, property]
  rfl

/-- Reading a member on the way along a path is noted, also where it fails. -/
theorem Engine.readAt_apply (environment : Environment) (path : Path) (access : Access)
    (holder : Value) (context : Context) :
    Engine.readAt environment path access holder context
      = match access.read environment.heap holder with
        | .ok value => .ok value
          { context with journal := .read holder access path :: context.journal }
        | .error error => .error (.access path.text error)
          { context with journal := .read holder access path :: context.journal } := by
  unfold Engine.readAt
  rw [Run.bind_apply, Run.record_apply]
  cases access.read environment.heap holder <;> rfl

/-! ### The journal only grows -/

namespace Run

/-- The context that a step leaves, also where it fails. -/
def after {α : Type} (step : Run α) (context : Context) : Context :=
  match step context with
  | .ok _ later => later
  | .error _ later => later

variable {α : Type} {step : Run α} {context later : Context}

theorem after_of_ok {a : α} (ok : step context = .ok a later) : step.after context = later := by
  rw [after, ok]

theorem after_of_error {error : ValidationError} (failed : step context = .error error later) :
    step.after context = later := by
  rw [after, failed]

theorem after_bind_of_ok {β : Type} {next : α → Run β} {a : α} (ok : step context = .ok a later) :
    (step >>= next).after context = (next a).after later := by
  rw [after, bind_of_ok ok]
  rfl

/-- Evaluating a constraint leaves its findings noted, also where it fails. -/
theorem after_evaluate (environment : Environment) (place : NodePlace) (value : Value)
    (node : ConstraintNode) (context : Context) :
    (Engine.evaluate environment place value node).after context
      = context.noting (judge environment context.site place value node) := by
  rw [after, Engine.evaluate_apply, Context.concluding]
  cases (judge environment context.site place value node).failure <;> rfl

end Run

/-- From a site where `pre` holds a step only adds to the journal, and where it succeeds `post`
holds of the site that it leads to. -/
structure Goes {α : Type} (pre post : Site → Prop) (step : Run α) : Prop where
  grows : ∀ context, pre context.site → context.journal <:+ (step.after context).journal
  arrives : ∀ context a later, pre context.site → step context = .ok a later → post later.site

namespace Goes

variable {α β : Type} {pre mid post : Site → Prop}

/-- A step that succeeds and does not touch the journal. -/
theorem of_ok {step : Run α} (ran : ∀ context, pre context.site →
    ∃ a later, step context = .ok a later ∧ later.journal = context.journal ∧ post later.site) :
    Goes pre post step where
  grows context here := by
    obtain ⟨a, later, ok, same, -⟩ := ran context here
    rw [Run.after_of_ok ok]
    exact ⟨[], same.symm⟩
  arrives context a later here ok := by
    obtain ⟨b, last, ran, -, holds⟩ := ran context here
    rw [ran] at ok
    cases ok
    exact holds

theorem throw (error : ValidationError) :
    Goes pre post (MonadExcept.throw error : Run α) where
  grows _ _ := List.suffix_rfl
  arrives _ _ _ _ ok := by cases ok

theorem bind {step : Run α} {next : α → Run β} (first : Goes pre mid step)
    (second : ∀ a, Goes mid post (next a)) : Goes pre post (step >>= next) where
  grows context here := by
    have leading := first.grows context here
    cases ran : step context with
    | ok a middle =>
      rw [Run.after_of_ok ran] at leading
      rw [Run.after_bind_of_ok ran]
      exact leading.trans ((second a).grows middle (first.arrives context a middle here ran))
    | error error later =>
      rw [Run.after_of_error ran] at leading
      rw [Run.after_of_error (Run.bind_of_error ran)]
      exact leading
  arrives context b later here ok := by
    cases ran : step context with
    | ok a middle =>
      rw [Run.bind_of_ok ran] at ok
      exact (second a).arrives middle b later (first.arrives context a middle here ran) ok
    | error error later =>
      rw [Run.bind_of_error ran] at ok
      cases ok

/-- A step that looks at the context first. -/
theorem get {next : Context → Run α}
    (goes : ∀ context, pre context.site → Goes pre post (next context)) :
    Goes pre post (MonadState.get >>= next) where
  grows context here := (goes context here).grows context here
  arrives context a later here ok := (goes context here).arrives context a later here ok

theorem restoring {step : Run α} {restore : Context → Context} (inner : Goes pre mid step)
    (same : ∀ later, (restore later).journal = later.journal)
    (holds : ∀ later, mid later.site → post (restore later).site) :
    Goes pre post (Run.restoring step restore) where
  grows context here := by
    have leading := inner.grows context here
    unfold Run.after at leading ⊢
    rw [Run.restoring_apply]
    cases ran : step context with
    | ok a later =>
      rw [ran] at leading
      dsimp only
      rw [same later]
      exact leading
    | error error later =>
      rw [ran] at leading
      dsimp only
      rw [same later]
      exact leading
  arrives context a later here ok := by
    rw [Run.restoring_apply] at ok
    cases ran : step context with
    | ok _ last =>
      rw [ran] at ok
      cases ok
      exact holds last (inner.arrives context a last here ran)
    | error error last =>
      rw [ran] at ok
      cases ok

end Goes

/-! ### Staying abreast -/

/-- The questions may be asked that a stop asks, for each bean that a journal enters. -/
def Setting.Encloses (setting : Setting) (asked : Site → Prop) (journal : List Event) : Prop :=
  ∀ bean metadata path, .entered bean metadata path ∈ journal →
    setting.AsksWithin asked ⟨bean, metadata, path⟩

theorem Setting.Encloses.of_suffix {setting : Setting} {asked : Site → Prop}
    {earlier later : List Event} (encloses : setting.Encloses asked later)
    (grown : earlier <:+ later) : setting.Encloses asked earlier :=
  fun bean metadata path member => encloses bean metadata path (grown.mem member)

/-- Where all questions may be asked, every journal asks where it may. -/
theorem Setting.encloses_everything (setting : Setting) (journal : List Event) :
    setting.Encloses (fun _ => True) journal :=
  fun _ _ _ _ => ⟨fun _ => trivial, fun _ _ _ => trivial⟩

/-- Two ways of fetching and a relation between the memories of their engines. -/
structure Sides where
  setting : Setting
  /-- Where values are fetched. -/
  asked : Site → Prop
  first : Fetch
  second : Fetch
  related : Memory → Memory → Prop

namespace Sides

/-- The same success at the same site, or the same failure, with related memories. -/
inductive Abreast (sides : Sides) {α : Type} :
    EStateM.Result ValidationError Context α → EStateM.Result ValidationError Context α → Prop
  | ok (a : α) (later : Context) {memory other : Memory} : sides.related memory other →
    Abreast sides (.ok a (later.recalling memory)) (.ok a (later.recalling other))
  | error (error : ValidationError) (later : Context) {memory other : Memory} :
    sides.related memory other → Abreast sides (.error error (later.recalling memory))
      (.error error (later.recalling other))

/-- From contexts that differ in related memories two steps stay abreast, as long as the first
journal enters beans only where values may be fetched. -/
structure Leads (sides : Sides) {α : Type} (pre post : Site → Prop) (step other : Run α) :
    Prop where
  goes : Goes pre post step
  abreast : ∀ (context : Context) (first second : Memory), pre context.site →
    sides.related first second →
      sides.setting.Encloses sides.asked (step.after (context.recalling first)).journal →
        sides.Abreast (step (context.recalling first)) (other (context.recalling second))

/-- Two steps stay abreast and come back to the site. -/
abbrev Keeps (sides : Sides) {α : Type} (site : Site) (step other : Run α) : Prop :=
  sides.Leads (fun here => here = site) (fun here => here = site) step other

namespace Leads

variable {sides : Sides} {α β : Type} {pre mid post : Site → Prop}

theorem weaken {step other : Run α} {stronger weaker : Site → Prop}
    (leads : sides.Leads pre post step other) (before : ∀ site, stronger site → pre site)
    (after : ∀ site, post site → weaker site) : sides.Leads stronger weaker step other where
  goes := {
    grows := fun context here => leads.goes.grows context (before _ here)
    arrives := fun context a later here ok =>
      after _ (leads.goes.arrives context a later (before _ here) ok) }
  abreast context first second here := leads.abreast context first second (before _ here)

/-- Two steps that do the same to the context and nothing to its memory. -/
theorem of_ok {step : Run α} (ran : ∀ context : Context, pre context.site →
      ∃ (a : α) (later : Context), post later.site ∧
        ∀ memory, step (context.recalling memory) = .ok a (later.recalling memory)) :
    sides.Leads pre post step step where
  goes := .of_ok fun context here => by
    obtain ⟨a, later, holds, ok⟩ := ran context here
    exact ⟨a, later.recalling context.memory, ok context.memory, rfl, holds⟩
  abreast context first second here related _ := by
    obtain ⟨a, later, -, ok⟩ := ran context here
    rw [ok first, ok second]
    exact .ok a later related

/-- What the first step leaves is related to what the other one leaves. -/
theorem after {step other : Run α} (leads : sides.Leads pre post step other) {context : Context}
    {memory : Memory} (here : pre context.site) (related : sides.related context.memory memory)
    (encloses : sides.setting.Encloses sides.asked (step.after context).journal) :
    ∃ left, sides.related (step.after context).memory left := by
  have abreast := leads.abreast context context.memory memory here related encloses
  rw [Context.recalling_memory] at abreast
  unfold Run.after
  generalize step context = result at abreast
  generalize other (context.recalling memory) = shown at abreast
  cases abreast with
  | ok a later related => exact ⟨_, related⟩
  | error error later related => exact ⟨_, related⟩

theorem pure (a : α) (holds : ∀ site, pre site → post site) :
    sides.Leads pre post (Pure.pure a) (Pure.pure a) :=
  of_ok fun context here => ⟨a, context, holds _ here, fun _ => rfl⟩

theorem modify (change : Context → Context)
    (blind : ∀ context memory,
      change (context.recalling memory) = (change context).recalling memory)
    (holds : ∀ context, pre context.site → post (change context).site) :
    sides.Leads pre post (modify change : Run PUnit) (modify change : Run PUnit) :=
  of_ok fun context here =>
    ⟨⟨⟩, change context, holds context here, fun memory => congrArg _ (blind context memory)⟩

theorem throw (error : ValidationError) :
    sides.Leads pre post (MonadExcept.throw error : Run α) (MonadExcept.throw error : Run α) where
  goes := .throw error
  abreast context _ _ _ related _ := .error error context related

theorem bind {step other : Run α} {next following : α → Run β}
    (leading : sides.Leads pre mid step other)
    (then_ : ∀ a, sides.Leads mid post (next a) (following a)) :
    sides.Leads pre post (step >>= next) (other >>= following) where
  goes := .bind leading.goes fun a => (then_ a).goes
  abreast context first second here related encloses := by
    have ahead := leading.abreast context first second here related
    cases ran : step (context.recalling first) with
    | error error later =>
      rw [Run.after_of_error (Run.bind_of_error ran)] at encloses
      rw [Run.after_of_error ran, ran] at ahead
      rw [Run.bind_of_error ran]
      generalize shown : other (context.recalling second) = result at ahead
      cases ahead encloses with
      | error _ later related =>
        rw [Run.bind_of_error shown]
        exact .error error later related
    | ok a middle =>
      have arrived : mid middle.site :=
        leading.goes.arrives (context.recalling first) a middle here ran
      rw [Run.after_bind_of_ok ran] at encloses
      rw [Run.after_of_ok ran, ran] at ahead
      rw [Run.bind_of_ok ran]
      generalize shown : other (context.recalling second) = result at ahead
      cases ahead (encloses.of_suffix ((then_ a).goes.grows middle arrived)) with
      | ok _ later related =>
        rw [Run.bind_of_ok shown]
        exact (then_ a).abreast later _ _ arrived related encloses

/-- Two steps that look at the context first, but not at its memory. -/
theorem get {next following : Context → Run α}
    (blind : ∀ context memory, next (context.recalling memory) = next context)
    (alike : ∀ context memory, following (context.recalling memory) = following context)
    (leads : ∀ context, pre context.site →
      sides.Leads pre post (next context) (following context)) :
    sides.Leads pre post (MonadState.get >>= next) (MonadState.get >>= following) where
  goes := .get fun context here => (leads context here).goes
  abreast context first second here related encloses := by
    have ran : (MonadState.get >>= next : Run α) (context.recalling first)
        = next context (context.recalling first) := by
      rw [← blind context first]
      rfl
    have likewise : (MonadState.get >>= following : Run α) (context.recalling second)
        = following context (context.recalling second) := by
      rw [← alike context second]
      rfl
    rw [Run.after, ran] at encloses
    rw [ran, likewise]
    exact (leads context here).abreast context first second here related encloses

theorem restoring {step other : Run α} {restore : Context → Context}
    (inner : sides.Leads pre mid step other)
    (blind : ∀ context memory,
      restore (context.recalling memory) = (restore context).recalling memory)
    (holds : ∀ context, mid context.site → post (restore context).site) :
    sides.Leads pre post (Run.restoring step restore) (Run.restoring other restore) := by
  have kept : ∀ later : Context, (restore later).journal = later.journal := fun later => by
    have same := blind later later.memory
    rw [Context.recalling_memory] at same
    rw [same]
    rfl
  refine ⟨.restoring inner.goes kept holds, fun context first second here related encloses => ?_⟩
  have journal : ((Run.restoring step restore).after (context.recalling first)).journal
      = (step.after (context.recalling first)).journal := by
    unfold Run.after
    rw [Run.restoring_apply]
    cases step (context.recalling first) with
    | ok a later => exact kept later
    | error error later => exact kept later
  rw [journal] at encloses
  have abreast := inner.abreast context first second here related encloses
  rw [Run.restoring_apply, Run.restoring_apply]
  generalize step (context.recalling first) = result at abreast
  generalize other (context.recalling second) = shown at abreast
  cases abreast with
  | ok a later related =>
    dsimp only
    rw [blind, blind]
    exact .ok a (restore later) related
  | error error later related =>
    dsimp only
    rw [blind, blind]
    exact .error error (restore later) related

theorem forEach {step other : α → Run Unit} {items : List α}
    (leads : ∀ item ∈ items, sides.Leads pre pre (step item) (other item)) :
    sides.Leads pre pre (Run.forEach step items) (Run.forEach other items) := by
  induction items with
  | nil => exact pure () fun _ holds => holds
  | cons item rest ih =>
    exact bind (leads item List.mem_cons_self)
      fun _ => ih fun other member => leads other (List.mem_cons_of_mem _ member)

end Leads

/-- A side with itself: all that is known of it holds of the first one alone. -/
def alone (sides : Sides) : Sides := ⟨sides.setting, fun _ => True, sides.first, sides.first, Eq⟩

theorem abreast_self {sides : Sides} {α : Type}
    (result : EStateM.Result ValidationError Context α) : sides.alone.Abreast result result := by
  have same : ∀ memory, sides.alone.related memory memory := fun _ => rfl
  cases result with
  | ok a later => exact .ok a later (same later.memory)
  | error error later => exact .error error later (same later.memory)

theorem leads_alone {sides : Sides} {α : Type} {pre post : Site → Prop} {step : Run α}
    (goes : Goes pre post step) : sides.alone.Leads pre post step step where
  goes := goes
  abreast context _ second _ same _ := by
    cases same
    exact abreast_self _

/-! ### The steps that the engine is made of -/

variable {sides : Sides} {site : Site} {step other : Run Unit}

/-- Two steps that do nothing. -/
theorem nothing {α : Type} (a : α) : sides.Keeps site (pure a) (pure a) :=
  .pure a fun _ same => same

theorem onProperty (name : String) (outside : site.property = none)
    (inner : sides.Keeps (site.below name) step other) :
    sides.Keeps site (Run.onProperty name step) (Run.onProperty name other) := by
  refine .restoring (.bind (.modify _ (fun _ _ => rfl) fun context here => ?_) fun _ => inner)
    (fun _ _ => rfl) fun context here => ?_
  · subst here
    rfl
  · have rootType : context.rootType = site.rootType := congrArg Site.rootType here
    have bean : context.bean = site.bean := congrArg Site.bean here
    have path : context.path = site.path.add name := congrArg Site.path here
    simp only [Context.site, rootType, bean, path, Path.removeLeaf_add, ← outside]

theorem onBean (bean : Value) (metadata : MetaBean)
    (inner : sides.Keeps ⟨site.rootType, bean, site.path, none⟩ step other) :
    sides.Keeps site (Run.onBean bean metadata step) (Run.onBean bean metadata other) := by
  refine .get (fun _ _ => rfl) (fun _ _ => rfl) fun before outside => ?_
  refine .restoring (.bind (.modify _ (fun _ _ => rfl) fun context here => ?_) fun _ => inner)
    (fun _ _ => rfl) fun context here => ?_
  · subst here
    rfl
  · have rootType : context.rootType = site.rootType := congrArg Site.rootType here
    have path : context.path = site.path := congrArg Site.path here
    have bean : before.bean = site.bean := congrArg Site.bean outside
    have property : before.property = site.property := congrArg Site.property outside
    simp only [Context.site, rootType, bean, path, property]

theorem markVisited (ref : BeanRef) :
    sides.Keeps site (Run.markVisited ref) (Run.markVisited ref) := by
  refine .of_ok fun context here => ?_
  by_cases known : context.visited.contains ref.id
  · refine ⟨false, context, here, fun memory => ?_⟩
    rw [Run.markVisited_apply]
    exact if_pos known
  · refine ⟨true, { context with visited := ref.id :: context.visited }, here, fun memory => ?_⟩
    rw [Run.markVisited_apply]
    exact if_neg known

theorem markProcessed (place : NodePlace) :
    sides.Keeps site (Run.markProcessed place) (Run.markProcessed place) := by
  refine .of_ok fun context here => ?_
  cases isBean : context.bean.bean? with
  | none =>
    refine ⟨true, context, here, fun memory => ?_⟩
    have same : (context.recalling memory).bean.bean? = none := isBean
    rw [Run.markProcessed_apply, same]
  | some ref =>
    have same : ∀ memory, (context.recalling memory).bean.bean? = some ref := fun _ => isBean
    by_cases known : context.processed.contains (ref.id, place)
    · refine ⟨false, context, here, fun memory => ?_⟩
      rw [Run.markProcessed_apply, same]
      exact if_pos known
    · refine ⟨true, { context with processed := (ref.id, place) :: context.processed }, here,
        fun memory => ?_⟩
      rw [Run.markProcessed_apply, same]
      exact if_neg known

theorem reports (inner : sides.Keeps site step other) :
    sides.Keeps site (Engine.reports step) (Engine.reports other) := by
  refine .get (fun _ _ => rfl) (fun _ _ => rfl) fun before _ => .bind inner fun _ => ?_
  exact .get (fun _ _ => rfl) (fun _ _ => rfl) fun _ _ => nothing _

theorem runSequence {prepare : TypeKey → Run Unit}
    (prepares : ∀ group, sides.Keeps site (prepare group) (prepare group))
    (inner : sides.Keeps site step other) (groups : List TypeKey) :
    sides.Keeps site (Engine.runSequence prepare step groups)
      (Engine.runSequence prepare other groups) := by
  induction groups with
  | nil => exact nothing ()
  | cons group rest ih =>
    refine .bind (prepares group) fun _ => .bind (reports inner) fun reported => ?_
    cases reported with
    | true => exact nothing ()
    | false => exact ih

theorem withDefaultSequence (metadata : MetaBean) (inner : sides.Keeps site step other) :
    sides.Keeps site (Engine.withDefaultSequence metadata step)
      (Engine.withDefaultSequence metadata other) := by
  have switches : ∀ group, sides.Keeps site (Engine.setGroup group) (Engine.setGroup group) :=
    fun _ => .modify _ (fun _ _ => rfl) fun _ same => same
  unfold Engine.withDefaultSequence
  cases metadata.groupSequence with
  | none => exact inner
  | some sequence =>
    refine .get (fun _ _ => rfl) (fun _ _ => rfl) fun context _ => ?_
    by_cases isDefault : context.group = .defaultGroup
    · simp only [if_pos isDefault]
      exact .restoring (runSequence switches inner sequence) (fun _ _ => rfl) fun _ same => same
    · simp only [if_neg isDefault]
      exact inner

theorem forEachGroup (groups : Groups) (inner : sides.Keeps site step other) :
    sides.Keeps site (Engine.forEachGroup groups step) (Engine.forEachGroup groups other) := by
  have starts : ∀ group, sides.Keeps site (Engine.startPass group) (Engine.startPass group) :=
    fun _ => .modify _ (fun _ _ => rfl) fun _ same => same
  have plain : sides.Keeps site
      (Run.forEach (fun group => do Engine.startPass group; step) groups.plain)
      (Run.forEach (fun group => do Engine.startPass group; other) groups.plain) :=
    .forEach fun group _ => .bind (starts group) fun _ => inner
  have sequences := fun sequence (_ : sequence ∈ groups.sequences) =>
    runSequence starts inner sequence
  exact .restoring (.bind plain fun _ => .forEach sequences) (fun _ _ => rfl) fun _ same => same

/-! ### Following a path -/

theorem namedProperty (metadata : MetaBean) (node : Path.Node) :
    sides.Keeps site (Engine.namedProperty metadata node) (Engine.namedProperty metadata node) := by
  unfold Engine.namedProperty
  split
  · exact .throw _
  · split
    · exact .throw _
    · exact nothing _

/-- Both may note the same reads. -/
def NotesReads (sides : Sides) : Prop :=
  ∀ first second, sides.related first second → ∀ holder access path,
    sides.related (first.noting [.read holder access path])
      (second.noting [.read holder access path])

theorem readAt (reads : sides.NotesReads) (path : Path) (access : Access) (holder : Value) :
    sides.Keeps site (Engine.readAt sides.setting.environment path access holder)
      (Engine.readAt sides.setting.environment path access holder) := by
  refine ⟨⟨fun context _ => ?_, fun context value later here ok => ?_⟩,
    fun context first second here related _ => ?_⟩
  · unfold Run.after
    rw [Engine.readAt_apply]
    cases access.read sides.setting.environment.heap holder <;> exact List.suffix_cons _ _
  · rw [Engine.readAt_apply] at ok
    cases read : access.read sides.setting.environment.heap holder with
    | ok value =>
      rw [read] at ok
      cases ok
      exact here
    | error error =>
      rw [read] at ok
      cases ok
  · have noted := reads first second related holder access path
    rw [Engine.readAt_apply, Engine.readAt_apply]
    cases access.read sides.setting.environment.heap holder with
    | ok value => exact .ok value context noted
    | error error => exact .error (.access path.text error) context noted

theorem stepInto (reads : sides.NotesReads) (walked : Path) (node : Path.Node)
    (property : MetaProperty) (bean : Value) :
    sides.Keeps site (Engine.stepInto sides.setting.environment walked node property bean)
      (Engine.stepInto sides.setting.environment walked node property bean) := by
  refine .bind (readAt reads walked property.primaryAccess bean) fun value => ?_
  split
  · split
    · exact nothing none
    · exact .bind (readAt reads walked _ value) fun element => nothing (some element)
  · exact nothing (some value)

end Sides

end GraphValidation
