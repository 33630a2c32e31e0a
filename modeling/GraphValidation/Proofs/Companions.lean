/-
**An engine and its companion.**

A companion of the engine fetches values in a way of its own: it may remember another value that was
read last, and keep another journal.  Apart from that it does what the engine does, as long as what
the two have noted stays related.  Most steps note nothing, so they keep any such relation; what
counts are the steps that turn to another bean, that write into the journal, that fetch a value and
that validate a constraint.

* `Notes`, `Trace` — what the engine has noted, and what its companion may have noted otherwise.
* `Together` — two steps come to the same and keep a relation; with rules for sequencing.
* `Notes.Keeps` — the companion that notes the same, where something is to hold of the notes.
* `Getting` — what reading a property comes to.
* `Companions` — what is asked of a relation and of two ways of fetching.
* `Companions.program`, `Companions.outcomes` — **the engine and its companion stay together** in a
  task, and so their calls come to the same.
-/
import GraphValidation.Proofs.SideBySide

namespace GraphValidation

/-! ### Notes -/

/-- What a call has noted: the bean under validation and the value that stands for its properties,
the value that was read last, the constraints that have been evaluated, and what has been done. -/
structure Notes where
  bean : Value
  override : Option Value
  lastRead : Option (Access × Value)
  processed : List (String × NodePlace)
  journal : List Event

/-- What a companion may have noted otherwise. -/
structure Trace where
  lastRead : Option (Access × Value)
  journal : List Event

namespace Notes

/-- What a call has noted when it begins. -/
def blank : Notes := ⟨.null, none, none, [], []⟩

/-- The notes of a companion that has noted the same. -/
def trace (notes : Notes) : Trace := ⟨notes.lastRead, notes.journal⟩

/-- The notes after some more events, the last one first. -/
def noting (notes : Notes) (events : List Event) : Notes :=
  { notes with journal := events ++ notes.journal }

/-- The notes on another bean, or with another value that stands for its properties. -/
def turned (notes : Notes) (bean : Value) (override : Option Value) : Notes :=
  { notes with bean, override, lastRead := none }

end Notes

namespace Trace

/-- The trace after some more events, the last one first. -/
def noting (trace : Trace) (events : List Event) : Trace :=
  { trace with journal := events ++ trace.journal }

/-- The trace with no value that was read last. -/
def turned (trace : Trace) : Trace := { trace with lastRead := none }

end Trace

namespace Context

/-- What a context has noted. -/
def notes (context : Context) : Notes :=
  ⟨context.bean, context.override, context.lastRead, context.processed, context.journal⟩

/-- The context of a companion. -/
def tracing (context : Context) (trace : Trace) : Context :=
  { context with lastRead := trace.lastRead, journal := trace.journal }

@[simp] theorem tracing_trace (context : Context) :
    context.tracing context.notes.trace = context := rfl

end Context

/-- Whether a constraint was evaluated. -/
def Event.isEvaluation : Event → Bool
  | evaluated _ _ _ _ => true
  | _ => false

/-! ### Steps together -/

/-- The same success or the same failure, with notes that are related. -/
inductive Meets (related : Notes → Trace → Prop) {α : Type} :
    EStateM.Result ValidationError Context α → EStateM.Result ValidationError Context α → Prop
  | ok (a : α) (later : Context) (trace : Trace) : related later.notes trace →
    Meets related (.ok a later) (.ok a (later.tracing trace))
  | error (error : ValidationError) (later : Context) (trace : Trace) : related later.notes trace →
    Meets related (.error error later) (.error error (later.tracing trace))

/-- From notes that are related two steps come to the same, and to notes that are related. -/
def Together (related : Notes → Trace → Prop) {α : Type} (step other : Run α) : Prop :=
  ∀ context trace, related context.notes trace →
    Meets related (step context) (other (context.tracing trace))

namespace Together

variable {related : Notes → Trace → Prop} {α β : Type}

/-- What a step leaves is related to what its companion leaves. -/
theorem after {step other : Run α} (together : Together related step other) {context : Context}
    {trace : Trace} (holds : related context.notes trace) :
    ∃ left, related (step.after context).notes left := by
  have meets := together context trace holds
  unfold Run.after
  generalize step context = result at meets
  generalize other (context.tracing trace) = shown at meets
  cases meets with
  | ok a later left holds => exact ⟨left, holds⟩
  | error error later left holds => exact ⟨left, holds⟩

theorem pure (a : α) : Together related (Pure.pure a : Run α) (Pure.pure a) :=
  fun context trace holds => .ok a context trace holds

theorem throw (error : ValidationError) :
    Together related (MonadExcept.throw error : Run α) (MonadExcept.throw error) :=
  fun context trace holds => .error error context trace holds

theorem ofExcept {ε : Type} (wrap : ε → ValidationError) (result : Except ε α) :
    Together related (Run.ofExcept wrap result) (Run.ofExcept wrap result) := by
  cases result with
  | ok a => exact pure a
  | error error => exact throw (wrap error)

/-- A change that comes to related notes. -/
abbrev Changes (related : Notes → Trace → Prop) (change : Context → Context) : Prop :=
  ∀ context trace, related context.notes trace →
    ∃ left, change (context.tracing trace) = (change context).tracing left
      ∧ related (change context).notes left

theorem modify {change : Context → Context} (changes : Changes related change) :
    Together related (modify change : Run PUnit) (modify change) := by
  intro context trace holds
  obtain ⟨left, same, after⟩ := changes context trace holds
  rw [Run.modify_apply, Run.modify_apply, same]
  exact .ok PUnit.unit (change context) left after

theorem bind {step other : Run α} {next following : α → Run β}
    (first : Together related step other)
    (second : ∀ a, Together related (next a) (following a)) :
    Together related (step >>= next) (other >>= following) := by
  intro context trace holds
  have meets := first context trace holds
  rw [Run.bind_apply, Run.bind_apply]
  generalize step context = result at meets
  generalize other (context.tracing trace) = shown at meets
  cases meets with
  | ok a middle left holds => exact second a middle left holds
  | error error middle left holds => exact .error error middle left holds

/-- A step that looks at the context first, but not at what a companion notes otherwise. -/
theorem get {next following : Context → Run α}
    (blind : ∀ context trace, following (context.tracing trace) = following context)
    (both : ∀ context, Together related (next context) (following context)) :
    Together related (MonadState.get >>= next) (MonadState.get >>= following) := by
  intro context trace holds
  have meets := both context context trace holds
  rw [← blind context trace] at meets
  exact meets

theorem branch {step other next following : Run α} {condition : Prop} [Decidable condition]
    (first : Together related step other) (second : Together related next following) :
    Together related (if condition then step else next)
      (if condition then other else following) := by
  split
  · exact first
  · exact second

theorem restoring {step other : Run α} {restore : Context → Context}
    (inner : Together related step other) (changes : Changes related restore) :
    Together related (Run.restoring step restore) (Run.restoring other restore) := by
  intro context trace holds
  have meets := inner context trace holds
  rw [Run.restoring_apply, Run.restoring_apply]
  generalize step context = result at meets
  generalize other (context.tracing trace) = shown at meets
  cases meets with
  | ok a later left holds =>
    obtain ⟨last, same, after⟩ := changes later left holds
    dsimp only
    rw [same]
    exact .ok a (restore later) last after
  | error error later left holds =>
    obtain ⟨last, same, after⟩ := changes later left holds
    dsimp only
    rw [same]
    exact .error error (restore later) last after

theorem forEach {step other : α → Run Unit}
    (steps : ∀ item, Together related (step item) (other item)) (items : List α) :
    Together related (Run.forEach step items) (Run.forEach other items) := by
  induction items with
  | nil => exact pure ()
  | cons item rest ih => exact bind (steps item) fun _ => ih

/-! ### Steps that note nothing -/

theorem onProperty (name : String) {step other : Run Unit} (inner : Together related step other) :
    Together related (Run.onProperty name step) (Run.onProperty name other) :=
  restoring (bind (modify fun _ trace holds => ⟨trace, rfl, holds⟩) fun _ => inner)
    fun _ trace holds => ⟨trace, rfl, holds⟩

theorem markVisited (ref : BeanRef) :
    Together related (Run.markVisited ref) (Run.markVisited ref) := by
  intro context trace holds
  rw [Run.markVisited_apply, Run.markVisited_apply]
  by_cases known : context.visited.contains ref.id
  · rw [if_pos known, if_pos (show (context.tracing trace).visited.contains ref.id from known)]
    exact .ok false context trace holds
  · rw [if_neg known, if_neg (show ¬ (context.tracing trace).visited.contains ref.id from known)]
    exact .ok true { context with visited := ref.id :: context.visited } trace holds

theorem metadataOf (type : TypeKey) :
    Together related (Run.metadataOf type) (Run.metadataOf type) := by
  intro context trace holds
  cases built : context.cache.configuration.build type with
  | ok metadata =>
    have likewise : Run.metadataOf type (context.tracing trace) = .ok metadata _ :=
      metadataOf_of_ok built
    rw [metadataOf_of_ok built, likewise]
    exact .ok metadata { context with cache := (context.cache.get type).2 } trace holds
  | error error =>
    have likewise : Run.metadataOf type (context.tracing trace) = .error (.config error) _ :=
      metadataOf_of_error built
    rw [metadataOf_of_error built, likewise]
    exact .error (.config error) { context with cache := (context.cache.get type).2 } trace holds

theorem namedProperty (metadata : MetaBean) (node : Path.Node) :
    Together related (Engine.namedProperty metadata node) (Engine.namedProperty metadata node) := by
  unfold Engine.namedProperty
  split
  · exact throw _
  · split
    · exact throw _
    · exact pure _

theorem reports {step other : Run Unit} (inner : Together related step other) :
    Together related (Engine.reports step) (Engine.reports other) :=
  get (fun _ _ => rfl) fun _ => bind inner fun _ => get (fun _ _ => rfl) fun _ => pure _

theorem runSequence {prepare : TypeKey → Run Unit} {step other : Run Unit}
    (prepares : ∀ group, Together related (prepare group) (prepare group))
    (inner : Together related step other) (groups : List TypeKey) :
    Together related (Engine.runSequence prepare step groups)
      (Engine.runSequence prepare other groups) := by
  induction groups with
  | nil => exact pure ()
  | cons group rest ih =>
    exact bind (prepares group) fun _ => bind (reports inner) fun _ => branch (pure ()) ih

theorem withDefaultSequence (metadata : MetaBean) {step other : Run Unit}
    (inner : Together related step other) :
    Together related (Engine.withDefaultSequence metadata step)
      (Engine.withDefaultSequence metadata other) := by
  have switches : ∀ group, Together related (Engine.setGroup group) (Engine.setGroup group) :=
    fun _ => modify fun _ trace holds => ⟨trace, rfl, holds⟩
  unfold Engine.withDefaultSequence
  cases metadata.groupSequence with
  | none => exact inner
  | some sequence =>
    refine get (fun _ _ => rfl) fun _ => branch ?_ inner
    exact restoring (runSequence switches inner sequence) fun _ trace holds => ⟨trace, rfl, holds⟩

theorem forEachGroup (groups : Groups) {step other : Run Unit}
    (inner : Together related step other) :
    Together related (Engine.forEachGroup groups step) (Engine.forEachGroup groups other) := by
  have starts : ∀ group, Together related (Engine.startPass group) (Engine.startPass group) :=
    fun _ => modify fun _ trace holds => ⟨trace, rfl, holds⟩
  have passes := bind (forEach (fun group => bind (starts group) fun _ => inner) groups.plain)
    fun _ => forEach (fun sequence => runSequence starts inner sequence) groups.sequences
  exact restoring passes fun _ trace holds => ⟨trace, rfl, holds⟩

end Together

/-! ### Keeping what holds of the notes -/

/-- A companion that has noted the same, as long as something holds of that. -/
structure Notes.Keeps (holds : Notes → Prop) (notes : Notes) (trace : Trace) : Prop where
  same : trace = notes.trace
  kept : holds notes

section Keeping

variable {holds : Notes → Prop} {α : Type}

/-- **A step is its own companion if it keeps what holds of the notes**, and only then. -/
theorem together_keeps_iff {step : Run α} :
    Together (Notes.Keeps holds) step step
      ↔ ∀ context, holds context.notes → holds (step.after context).notes := by
  constructor
  · intro together context now
    obtain ⟨_, keeps⟩ := together.after ⟨rfl, now⟩
    exact keeps.kept
  · rintro kept context _ ⟨rfl, now⟩
    have later := kept context now
    rw [Context.tracing_trace]
    unfold Run.after at later
    generalize step context = result at later
    cases result with
    | ok a left => exact .ok a left left.notes.trace ⟨rfl, later⟩
    | error error left => exact .error error left left.notes.trace ⟨rfl, later⟩

end Keeping

/-! ### Reading a property -/

/-- The context after an access was read on the bean, with what is remembered of it. -/
def Context.reading (context : Context) (access : Access) (lastRead : Option (Access × Value)) :
    Context :=
  { context with journal := .read context.bean access context.path :: context.journal, lastRead }

/-- What reading a property comes to: the value that stands for every property, the value that was
read last, or what the access reads on the bean. -/
inductive Getting (environment : Environment) (access : Access) (context : Context) :
    EStateM.Result ValidationError Context Value → Prop
  | given (value : Value) : context.override = some value →
    Getting environment access context (.ok value context)
  | remembered (value : Value) : context.override = none →
    context.lastRead = some (access, value) → Getting environment access context (.ok value context)
  | read (value : Value) : context.override = none →
    access.read environment.heap context.bean = .ok value →
      Getting environment access context
        (.ok value (context.reading access (some (access, value))))
  | failed (error : AccessError) : context.override = none →
    access.read environment.heap context.bean = .error error →
      Getting environment access context
        (.error (.access context.path.text error) (context.reading access context.lastRead))

/-- **A property is read in one of four ways.** -/
theorem propertyValue_getting (environment : Environment) (access : Access) (context : Context) :
    Getting environment access context (Run.propertyValue environment access context) := by
  unfold Run.propertyValue
  rw [Run.bind_of_ok (Run.get_apply context)]
  cases given : context.override with
  | some value => exact .given value given
  | none =>
    cases known : context.lastRead.filter fun last => last.1 == access with
    | some last =>
      obtain ⟨isLast, same⟩ := Option.filter_eq_some_iff.mp known
      refine .remembered last.2 given ?_
      rw [isLast, ← eq_of_beq same]
    | none =>
      dsimp only
      rw [Run.bind_of_ok (Run.record_apply _ context)]
      cases result : access.read environment.heap context.bean with
      | ok value => exact .read value given result
      | error error => exact .failed error given result

/-! ### Fetching a value -/

/-- Both may note what is no evaluation. -/
def Records (related : Notes → Trace → Prop) : Prop :=
  ∀ {notes trace}, related notes trace → ∀ event, Event.isEvaluation event = false →
    related (notes.noting [event]) (trace.noting [event])

theorem Records.of_kept {holds : Notes → Prop}
    (kept : ∀ {notes}, holds notes → ∀ event, Event.isEvaluation event = false →
      holds (notes.noting [event])) : Records (Notes.Keeps holds) := by
  rintro notes _ ⟨rfl, now⟩ event quiet
  exact ⟨rfl, kept now event quiet⟩

namespace Run

/-- Fetches values as the engine does, but reads them in some way. -/
def fetchReading (environment : Environment) (reading : Access → Run Value) : Fetch :=
  fun access => do
    if ← isTraversable environment access then some <$> reading access else pure none

end Run

namespace Together

variable {related : Notes → Trace → Prop} (records : Records related)

include records

theorem record (event : Event) (quiet : event.isEvaluation = false) :
    Together related (Run.record event) (Run.record event) :=
  modify fun _ trace holds => ⟨trace.noting [event], rfl, records holds event quiet⟩

variable (environment : Environment)

theorem readAt (path : Path) (access : Access) (holder : Value) :
    Together related (Engine.readAt environment path access holder)
      (Engine.readAt environment path access holder) :=
  bind (record records _ rfl) fun _ => ofExcept _ _

theorem ask (question : Question) (kind : ElementKind) :
    Together related (Run.ask environment question kind) (Run.ask environment question kind) := by
  refine get (fun _ _ => rfl) fun context => ?_
  dsimp only
  split
  · exact pure _
  · exact bind (record records _ rfl) fun _ => bind (ofExcept _ _) fun answer =>
      bind (modify fun _ trace holds => ⟨trace, rfl, holds⟩) fun _ => pure answer

theorem isTraversable (access : Access) :
    Together related (Run.isTraversable environment access)
      (Run.isTraversable environment access) :=
  bind (ask records environment _ _) fun _ => branch (ask records environment _ _) (pure false)

theorem fetchReading {reading other : Access → Run Value}
    (reads : ∀ access, Together related (reading access) (other access)) (access : Access) :
    Together related (Run.fetchReading environment reading access)
      (Run.fetchReading environment other access) := by
  refine bind (isTraversable records environment access) fun allowed => ?_
  cases allowed with
  | true =>
    simp only [if_true, map_eq_pure_bind]
    exact bind (reads access) fun value => pure (some value)
  | false => exact pure none

end Together

/-! ### Validating a constraint -/

/-- Both may note that constraints are claimed, and evaluated. -/
structure Evaluates (related : Notes → Trace → Prop) : Prop where
  claims : ∀ {notes trace}, related notes trace → ∀ claim,
    related { notes with processed := claim :: notes.processed } trace
  evaluations : ∀ {notes trace}, related notes trace → ∀ bean path group (places : List NodePlace),
    related (notes.noting (places.map (Event.evaluated bean path group)).reverse)
      (trace.noting (places.map (Event.evaluated bean path group)).reverse)

namespace Together

variable {related : Notes → Trace → Prop}

theorem withFetched {first second : Fetch} {access : Access}
    (fetches : Together related (first access) (second access)) {use other : Value → Run Unit}
    (uses : ∀ value, Together related (use value) (other value)) :
    Together related (Run.withFetched first access use) (Run.withFetched second access other) := by
  refine bind fetches fun fetched => ?_
  cases fetched with
  | none => exact pure ()
  | some value => exact uses value

variable (evaluates : Evaluates related)

include evaluates

theorem markProcessed (place : NodePlace) :
    Together related (Run.markProcessed place) (Run.markProcessed place) := by
  intro context trace holds
  have own := Run.markProcessed_apply place context
  have likewise := Run.markProcessed_apply place (context.tracing trace)
  rw [show (context.tracing trace).bean = context.bean from rfl,
    show (context.tracing trace).processed = context.processed from rfl] at likewise
  rw [own, likewise]
  cases context.bean.bean? with
  | none => exact .ok true context trace holds
  | some ref =>
    dsimp only
    split
    · exact .ok false context trace holds
    · exact .ok true { context with processed := (ref.id, place) :: context.processed } trace
        (evaluates.claims holds _)

theorem evaluate (environment : Environment) (place : NodePlace) (value : Value)
    (node : ConstraintNode) :
    Together related (Engine.evaluate environment place value node)
      (Engine.evaluate environment place value node) := by
  intro context trace holds
  rw [Engine.evaluate_apply, Engine.evaluate_apply]
  change Meets related (context.concluding (judge environment context.site place value node))
    ((context.tracing trace).concluding (judge environment context.site place value node))
  generalize judge environment context.site place value node = findings
  have noted := evaluates.evaluations holds context.bean context.path context.group findings.places
  unfold Context.concluding
  cases findings.failure with
  | none => exact .ok () (context.noting findings) _ noted
  | some error => exact .error error (context.noting findings) _ noted

theorem validateConstraintBy {environment : Environment} {first second : Fetch}
    (fetches : ∀ access, Together related (first access) (second access)) (place : NodePlace)
    (node : ConstraintNode) :
    Together related (Engine.validateConstraintBy environment first place node)
      (Engine.validateConstraintBy environment second place node) := by
  refine get (fun _ _ => rfl) fun context => branch (pure ()) ?_
  refine bind (markProcessed evaluates place) fun isNew => branch (pure ()) ?_
  cases node.content.access with
  | none => exact evaluate evaluates environment place context.bean node
  | some access =>
    exact withFetched (fetches access) fun value => evaluate evaluates environment place value node

end Together

/-! ### Companions -/

/-- What is asked of a relation and of two ways of fetching. -/
structure Companions (environment : Environment) (related : Notes → Trace → Prop)
    (first second : Fetch) : Prop where
  /-- Both may turn to another bean, or to another value that stands for its properties. -/
  turns : ∀ {notes trace}, related notes trace → ∀ bean override,
    related (notes.turned bean override) trace.turned
  records : Records related
  fetches : ∀ access, Together related (first access) (second access)
  /-- Both may validate the same constraint. -/
  examines : ∀ type property index node,
    Together related (Engine.validateConstraintBy environment first ⟨type, property, [index]⟩ node)
      (Engine.validateConstraintBy environment second ⟨type, property, [index]⟩ node)

namespace Companions

open Together

/-- Engines that evaluate alike, but read in ways of their own. -/
theorem of_readings {environment : Environment} {related : Notes → Trace → Prop}
    {reading other : Access → Run Value}
    (turns : ∀ {notes trace}, related notes trace → ∀ bean override,
      related (notes.turned bean override) trace.turned)
    (records : Records related) (evaluates : Evaluates related)
    (reads : ∀ access, Together related (reading access) (other access)) :
    Companions environment related (Run.fetchReading environment reading)
      (Run.fetchReading environment other) where
  turns := turns
  records := records
  fetches := fetchReading records environment reads
  examines _ _ _ node :=
    validateConstraintBy evaluates (fetchReading records environment reads) _ node

variable {environment : Environment} {related : Notes → Trace → Prop} {first second : Fetch}
  (companions : Companions environment related first second)

include companions

/-! ### Beans and their constraints -/

theorem onBean (bean : Value) (metadata : MetaBean) {step other : Run Unit}
    (inner : Together related step other) :
    Together related (Run.onBean bean metadata step) (Run.onBean bean metadata other) :=
  get (fun _ _ => rfl) fun before => restoring
    (bind (modify fun context trace holds =>
      ⟨trace.turned, rfl, companions.turns holds bean context.override⟩) fun _ => inner)
    fun context trace holds =>
      ⟨trace.turned, rfl, companions.turns holds before.bean context.override⟩

theorem validateConstraintsBy (type : TypeKey) (property : Option String) (index : Nat)
    (nodes : List ConstraintNode) :
    Together related (Engine.validateConstraintsBy environment first type property index nodes)
      (Engine.validateConstraintsBy environment second type property index nodes) := by
  induction nodes generalizing index with
  | nil => exact pure ()
  | cons node rest ih =>
    exact bind (companions.examines type property index node) fun _ => ih (index + 1)

theorem validateOwnBy (metadata : MetaBean) :
    Together related (Engine.validateOwnBy environment first metadata)
      (Engine.validateOwnBy environment second metadata) := by
  refine bind (forEach (fun property => branch (pure ()) ?_) _) fun _ =>
    companions.validateConstraintsBy _ _ _ _
  exact onProperty property.name (companions.validateConstraintsBy _ _ _ _)

/-! ### From bean to bean -/

section Cascades

variable {visit other : Value → MetaBean → Run Unit}
  (visits : ∀ bean metadata, Together related (visit bean metadata) (other bean metadata))

omit companions in
include visits in
theorem validateElement (target : CascadeTarget) (element : Value) :
    Together related (Engine.validateElement environment visit target element)
      (Engine.validateElement environment other target element) :=
  branch (bind (metadataOf _) fun metadata => visits element metadata) (pure ())

omit companions in
include visits in
theorem validateElements (target : CascadeTarget) (elements : List (Path.Mark × Value)) :
    Together related (Engine.validateElements environment visit target elements)
      (Engine.validateElements environment other target elements) := by
  induction elements with
  | nil => exact pure ()
  | cons head rest ih =>
    obtain ⟨mark, element⟩ := head
    have marking : Together related (Engine.markLeaf mark) (Engine.markLeaf mark) :=
      modify fun _ trace holds => ⟨trace, rfl, holds⟩
    unfold Engine.validateElements
    exact branch (bind (pure ()) fun _ => ih) (bind marking fun _ =>
      bind (validateElement visits target element) fun _ => ih)

omit companions in
include visits in
theorem validateValue (target : CascadeTarget) (value : Value) :
    Together related (Engine.validateValue environment visit target value)
      (Engine.validateValue environment other target value) := by
  unfold Engine.validateValue
  refine branch (pure ()) ?_
  cases Engine.elements? environment value with
  | some elements =>
    exact bind (validateElements visits target elements) fun _ =>
      modify fun _ trace holds => ⟨trace, rfl, holds⟩
  | none => exact validateElement visits target value

include visits

theorem validateCascadesBy (metadata : MetaBean) :
    Together related (Engine.validateCascadesBy environment first visit metadata)
      (Engine.validateCascadesBy environment second other metadata) := by
  refine forEach (fun property => ?_) _
  cases property.cascade with
  | none => exact pure ()
  | some target =>
    exact onProperty property.name (forEach (fun access =>
      withFetched (companions.fetches access) (validateValue visits target)) _)

theorem enterBy (bean : Value) (metadata : MetaBean) :
    Together related (Engine.enterBy environment first visit bean metadata)
      (Engine.enterBy environment second other bean metadata) := by
  have stay := bind (withDefaultSequence metadata (companions.validateOwnBy metadata)) fun _ =>
    companions.validateCascadesBy visits metadata
  exact get (fun _ _ => rfl) fun context => bind (record companions.records _ rfl) fun _ =>
    companions.onBean bean metadata stay

end Cascades

/-- **Both stay together at a bean and at all that is reached from it**, by induction on the
levels. -/
theorem validateBeanBy (levels : Nat) (bean : Value) (metadata : MetaBean) :
    Together related (Engine.validateBeanBy environment first levels bean metadata)
      (Engine.validateBeanBy environment second levels bean metadata) := by
  induction levels generalizing bean metadata with
  | zero => exact pure ()
  | succ levels ih =>
    have entering := companions.enterBy ih bean metadata
    unfold Engine.validateBeanBy
    cases bean.bean? with
    | none => exact bind (pure true) fun _ => branch (pure ()) entering
    | some ref => exact bind (markVisited ref) fun _ => branch (pure ()) entering

/-! ### Tasks -/

theorem validateGraphBy (root : Value) (metadata : Option MetaBean) (groups : Groups) :
    Together related (Engine.validateGraphBy environment first root metadata groups)
      (Engine.validateGraphBy environment second root metadata groups) := by
  have visits := companions.validateBeanBy (Engine.levels environment root)
  refine forEachGroup groups ?_
  cases metadata with
  | some metadata => exact visits root metadata
  | none => exact validateValue visits .dynamic root

theorem validateOnePropertyBy (metadata : MetaBean) (property : MetaProperty) (groups : Groups) :
    Together related (Engine.validateOnePropertyBy environment first metadata property groups)
      (Engine.validateOnePropertyBy environment second metadata property groups) :=
  onProperty property.name (forEachGroup groups (withDefaultSequence metadata
    (companions.validateConstraintsBy _ _ _ _)))

theorem stepInto (walked : Path) (node : Path.Node) (property : MetaProperty) (bean : Value) :
    Together related (Engine.stepInto environment walked node property bean)
      (Engine.stepInto environment walked node property bean) := by
  refine bind (readAt companions.records environment walked _ bean) fun value =>
    branch ?_ (pure (some value))
  split
  · exact pure none
  · exact bind (readAt companions.records environment walked _ value) fun element =>
      pure (some element)

theorem navigate (bean : Value) (metadata : MetaBean) (walked : Path) (nodes : List Path.Node) :
    Together related (Engine.navigate environment bean metadata walked nodes)
      (Engine.navigate environment bean metadata walked nodes) := by
  induction nodes generalizing bean metadata walked with
  | nil => exact pure _
  | cons node rest ih =>
    refine bind (namedProperty metadata node) fun property => ?_
    refine bind (companions.stepInto _ node property bean) fun reached => ?_
    cases reached with
    | none => exact pure none
    | some value =>
      exact branch (pure none) (bind (metadataOf _) fun metadata => ih value metadata _)

theorem validateArrivedBy (node : Path.Node) (groups : Groups)
    (arrived : Option (Value × MetaBean × Path)) :
    Together related (Engine.validateArrivedBy environment first node groups arrived)
      (Engine.validateArrivedBy environment second node groups arrived) := by
  cases arrived with
  | none => exact pure ()
  | some arrived =>
    obtain ⟨bean, metadata, walked⟩ := arrived
    refine bind (namedProperty metadata node) fun property => ?_
    refine bind (modify fun _ trace holds => ⟨trace, rfl, holds⟩) fun _ => ?_
    exact companions.onBean bean metadata
      (companions.validateOnePropertyBy metadata property groups)

theorem validatePropertyValueBy (metadata : MetaBean) (name : String) (value : Value)
    (groups : Groups) :
    Together related (Engine.validatePropertyValueBy environment first metadata name value groups)
      (Engine.validatePropertyValueBy environment second metadata name value groups) := by
  unfold Engine.validatePropertyValueBy
  cases metadata.property? name with
  | none => exact throw _
  | some property =>
    have inner := companions.onBean .null metadata
      (companions.validateOnePropertyBy metadata property groups)
    exact restoring
      (bind (modify fun context trace holds =>
        ⟨trace.turned, rfl, companions.turns holds context.bean (some value)⟩) fun _ => inner)
      fun context trace holds => ⟨trace.turned, rfl, companions.turns holds context.bean none⟩

/-- **The engine and its companion stay together in a task.** -/
theorem program (task : Task) :
    Together related (task.program environment first) (task.program environment second) := by
  cases task with
  | graph root metadata groups => exact companions.validateGraphBy root metadata groups
  | property root metadata path groups =>
    exact bind (companions.navigate root metadata .root path.above.reverse)
      (companions.validateArrivedBy path.leaf groups)
  | value metadata name given groups =>
    exact companions.validatePropertyValueBy metadata name given groups

omit companions in
/-- **Calls of the engine and of its companion** fail alike and find the same, if what they have
noted is related when they begin. -/
theorem outcomes (validator : Validator) (heap : Heap) (first second : Environment → Fetch)
    (companions : Companions (validator.environment heap) related
      (first (validator.environment heap)) (second (validator.environment heap)))
    (blank : related .blank Notes.blank.trace) (validation : Validation) :
    ∃ failure later trace, related (Context.notes later) trace
      ∧ validator.performBy first heap validation = validator.outcomeOf failure later
      ∧ validator.performBy second heap validation
        = validator.outcomeOf failure (later.tracing trace) := by
  obtain ⟨cache, -, performed⟩ := performBy_eq validator heap validation
  rw [performed, performed]
  cases validator.task? heap validation with
  | error error =>
    exact ⟨some error, .start cache, Notes.blank.trace, blank, rfl, rfl⟩
  | ok task =>
    have meets := companions.program task (.ready cache task.rootType) Notes.blank.trace blank
    rw [show Notes.blank.trace = (Context.ready cache task.rootType).notes.trace from rfl,
      Context.tracing_trace] at meets
    dsimp only
    generalize task.program (validator.environment heap) (first _) _ = result at meets
    generalize task.program (validator.environment heap) (second _) _ = other at meets
    cases meets with
    | ok _ later trace holds => exact ⟨none, later, trace, holds, rfl, rfl⟩
    | error error later trace holds => exact ⟨some error, later, trace, holds, rfl, rfl⟩

end Companions

end GraphValidation
