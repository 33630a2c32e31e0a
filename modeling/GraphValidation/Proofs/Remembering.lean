/-
**What was read last.**

A call remembers the value that it has read last, under the access alone, and the beans of a graph
often share their accesses.  It forgets the value when it turns to another bean or to a value in
place of a property, and when it comes back.  So it never remembers anything but what the access
would read on the bean that it is at, and it would find the same if it remembered nothing.

* `Context.present`, `Context.Faithful` — what a property is at present, and where the engine gets
  it as it is.
* `Run.readAnew`, `Validator.performRereading` — the engine that reads each time, and its calls.
* `Notes.Recalls` — what is remembered is what would be read; kept by reading and by turning.
* `Validator.reads_faithfully` — **each property is got as it is at present**.
* `remembering_transparent` — **calls find the same as calls that remember nothing**.
-/
import GraphValidation.Proofs.Companions
import GraphValidation.Proofs.Whereabouts

namespace GraphValidation

/-! ### Properties at present -/

namespace Context

/-- What a property is at present: the value that stands for every property, or what the access
reads on the bean. -/
def present (environment : Environment) (context : Context) (access : Access) :
    Except ValidationError Value :=
  match context.override with
  | some value => .ok value
  | none => (access.read environment.heap context.bean).mapError (.access context.path.text)

/-- The engine gets a property as it is at present, whatever it remembers. -/
def Faithful (environment : Environment) (context : Context) (access : Access) : Prop :=
  ∃ later, Run.propertyValue environment access context
    = match context.present environment access with
      | .ok value => .ok value later
      | .error error => .error error later

end Context

/-- Reads a property as the engine does, but remembers nothing. -/
def Run.readAnew (environment : Environment) (access : Access) : Run Value := do
  let context ← get
  match context.override with
  | some value => pure value
  | none =>
    record (.read context.bean access context.path)
    ofExcept (.access context.path.text) (access.read environment.heap context.bean)

namespace Validator

/-- A call gets each property as it is at present: the engine may read in any other way wherever it
would get anything else, be it that it fails there, without making a difference. -/
def ReadsFaithfully (validator : Validator) (heap : Heap) (validation : Validation) : Prop :=
  ∀ reading : Access → Run Value,
    (∀ access context, context.Faithful (validator.environment heap) access →
      reading access context = Run.propertyValue (validator.environment heap) access context) →
    validator.performBy (fun environment => Run.fetchReading environment reading) heap validation
      = validator.perform heap validation

/-- A call whose engine remembers nothing that it has read. -/
def performRereading (validator : Validator) (heap : Heap) (validation : Validation) : Outcome :=
  validator.performBy (fun environment => Run.fetchReading environment (Run.readAnew environment))
    heap validation

/-- Validates several graphs with an engine that remembers nothing that it has read. -/
def validateBatchRereading (validator : Validator) (heap : Heap) (requested : List TypeKey) :
    List Value → List Outcome × Validator
  | [] => ([], validator)
  | root :: rest =>
    let outcome := validator.performRereading heap (.graph root requested)
    let (outcomes, validator) := outcome.validator.validateBatchRereading heap requested rest
    (outcome :: outcomes, validator)

end Validator

/-! ### What is remembered -/

/-- What is remembered is what the access would read on the bean. -/
def Notes.Recalls (heap : Heap) (notes : Notes) : Prop :=
  ∀ access value, notes.lastRead = some (access, value) → access.read heap notes.bean = .ok value

namespace Notes

variable {heap : Heap} {notes : Notes}

/-- Who turns to another bean remembers nothing. -/
theorem recalls_turned (bean : Value) (override : Option Value) :
    (notes.turned bean override).Recalls heap := fun _ _ known => by cases known

/-- Who has just read something remembers that. -/
theorem recalls_read {access : Access} {value : Value}
    (last : notes.lastRead = some (access, value))
    (found : access.read heap notes.bean = .ok value) : notes.Recalls heap := by
  intro other remembered known
  rw [last] at known
  cases known
  exact found

end Notes

section Faithfully

variable {environment : Environment} {context : Context}

/-- **What is remembered makes no difference** to what the engine gets. -/
theorem Context.faithful_of_recalls (recalls : context.notes.Recalls environment.heap)
    (access : Access) : context.Faithful environment access := by
  have reading := propertyValue_getting environment access context
  unfold Faithful present
  generalize Run.propertyValue environment access context = result at reading
  cases reading with
  | given value given => exact ⟨context, by rw [given]⟩
  | remembered value free known =>
    have found : access.read environment.heap context.bean = .ok value := recalls access value known
    exact ⟨context, by rw [free, found]; rfl⟩
  | read value free found => exact ⟨_, by rw [free, found]; rfl⟩
  | failed error free failed => exact ⟨_, by rw [free, failed]; rfl⟩

end Faithfully

/-! ### Reading in any other way -/

section Elsewhere

variable {environment : Environment}

/-- Reading keeps what is remembered right. -/
theorem recalls_after_read (access : Access) (context : Context)
    (recalls : context.notes.Recalls environment.heap) :
    ((Run.propertyValue environment access).after context).notes.Recalls environment.heap := by
  have reading := propertyValue_getting environment access context
  unfold Run.after
  generalize Run.propertyValue environment access context = result at reading
  cases reading with
  | given _ _ => exact recalls
  | remembered _ _ _ => exact recalls
  | read _ _ found => exact Notes.recalls_read rfl found
  | failed _ _ _ => exact recalls

/-- The engine, and one that reads in any other way where it would not get what is present. -/
theorem elsewhere_companions {reading : Access → Run Value}
    (agrees : ∀ access context, context.Faithful environment access →
      reading access context = Run.propertyValue environment access context) :
    Companions environment (Notes.Keeps (Notes.Recalls environment.heap)) (Run.fetch environment)
      (Run.fetchReading environment reading) := by
  have records : Records (Notes.Keeps (Notes.Recalls environment.heap)) :=
    Records.of_kept fun recalls _ _ => recalls
  refine .of_readings ?turns records ?evaluates fun access => ?reads
  case turns =>
    exact fun keeps bean override =>
      ⟨congrArg Trace.turned keeps.same, Notes.recalls_turned bean override⟩
  case evaluates =>
    refine ⟨fun keeps _ => ⟨keeps.same, keeps.kept⟩, ?_⟩
    rintro notes _ ⟨rfl, recalls⟩ _ _ _ _
    exact ⟨rfl, recalls⟩
  case reads =>
    rintro context _ ⟨rfl, recalls⟩
    rw [Context.tracing_trace, agrees access context (Context.faithful_of_recalls recalls access)]
    exact together_keeps_iff.mpr (recalls_after_read access) context context.notes.trace
      ⟨rfl, recalls⟩

end Elsewhere

/-- **Each property is got as it is at present**, in every call. -/
theorem Validator.reads_faithfully (validator : Validator) (heap : Heap)
    (validation : Validation) : validator.ReadsFaithfully heap validation := by
  intro reading agrees
  have blank : Notes.blank.Recalls heap := fun _ _ known => by cases known
  obtain ⟨failure, later, trace, keeps, performed, likewise⟩ :=
    Companions.outcomes validator heap Run.fetch
      (fun environment => Run.fetchReading environment reading) (elsewhere_companions agrees)
      ⟨rfl, blank⟩ validation
  rw [Validator.perform_eq_by, performed, likewise, keeps.same, Context.tracing_trace]

/-! ### Reading each time -/

/-- What was done besides reading. -/
def withoutReads (journal : List Event) : List Event := journal.filter fun event => !event.isRead

theorem withoutReads_reverse {journal other : List Event}
    (same : withoutReads journal = withoutReads other) :
    withoutReads journal.reverse = withoutReads other.reverse := by
  unfold withoutReads at same ⊢
  rw [List.filter_reverse, List.filter_reverse, same]

/-- A companion that may have read more often than an engine that remembers what would be read. -/
structure Notes.Spares (heap : Heap) (notes : Notes) (trace : Trace) : Prop where
  recalls : notes.Recalls heap
  fewer : notes.journal.Sublist trace.journal
  others : withoutReads notes.journal = withoutReads trace.journal

theorem readAnew_tracing (environment : Environment) (access : Access) (context : Context)
    (trace : Trace) :
    Run.readAnew environment access (context.tracing trace)
      = match context.override with
        | some value => .ok value (context.tracing trace)
        | none =>
          match access.read environment.heap context.bean with
          | .ok value =>
            .ok value (context.tracing (trace.noting [.read context.bean access context.path]))
          | .error error =>
            .error (.access context.path.text error)
              (context.tracing (trace.noting [.read context.bean access context.path])) := by
  unfold Run.readAnew
  rw [Run.bind_of_ok (Run.get_apply _)]
  change (match context.override with | some value => _ | none => _ : Run Value) _ = _
  cases context.override with
  | some value => rfl
  | none =>
    dsimp only
    rw [Run.bind_of_ok (Run.record_apply _ _)]
    change Run.ofExcept _ (access.read environment.heap context.bean) _ = _
    cases access.read environment.heap context.bean <;> rfl

section Spares

variable {heap : Heap} {notes : Notes} {trace : Trace} (spares : notes.Spares heap trace)

include spares

theorem Notes.Spares.noting (events : List Event) :
    (notes.noting events).Spares heap (trace.noting events) where
  recalls := spares.recalls
  fewer := spares.fewer.append_left events
  others := by
    simp only [withoutReads, Notes.noting, Trace.noting, List.filter_append]
    exact congrArg _ spares.others

/-- The companion alone reads once more. -/
theorem Notes.Spares.noting_read (holder : Value) (access : Access) (path : Path) :
    notes.Spares heap (trace.noting [.read holder access path]) where
  recalls := spares.recalls
  fewer := spares.fewer.cons _
  others := spares.others

end Spares

section Spares

variable {environment : Environment}

theorem spares_evaluates (heap : Heap) : Evaluates (Notes.Spares heap) where
  claims spares _ := { spares with recalls := spares.recalls }
  evaluations spares _ _ _ _ := spares.noting _

/-- **Reading again gives what is remembered.** -/
theorem spares_reads (access : Access) :
    Together (Notes.Spares environment.heap) (Run.propertyValue environment access)
      (Run.readAnew environment access) := by
  intro context trace spares
  rw [readAnew_tracing]
  have again := spares.noting [.read context.bean access context.path]
  have reading := propertyValue_getting environment access context
  generalize Run.propertyValue environment access context = result at reading
  cases reading with
  | given value given =>
    rw [given]
    exact .ok value context trace spares
  | remembered value free known =>
    have found : access.read environment.heap context.bean = .ok value :=
      spares.recalls access value known
    rw [free, found]
    exact .ok value context _ (spares.noting_read context.bean access context.path)
  | read value free found =>
    rw [free, found]
    exact .ok value (context.reading access _) _
      { again with recalls := Notes.recalls_read rfl found }
  | failed error free failed =>
    rw [free, failed]
    exact .error _ (context.reading access _) _ again

/-- The engine, and one that remembers nothing that it has read. -/
theorem spares_companions :
    Companions environment (Notes.Spares environment.heap) (Run.fetch environment)
      (Run.fetchReading environment (Run.readAnew environment)) :=
  .of_readings
    (fun spares bean override => { spares with recalls := Notes.recalls_turned bean override })
    (fun spares _ _ => spares.noting _) (spares_evaluates _) spares_reads

end Spares

/-! ### Calls -/

/-- The same outcome, of a call that may have read more often. -/
structure Outcome.Rereads (outcome other : Outcome) : Prop where
  failure : outcome.failure = other.failure
  heard : outcome.heard = other.heard
  fewer : outcome.journal.Sublist other.journal
  others : withoutReads outcome.journal = withoutReads other.journal
  validator : outcome.validator = other.validator

namespace Validator

theorem rereads (validator : Validator) (heap : Heap) (validation : Validation) :
    (validator.perform heap validation).Rereads (validator.performRereading heap validation) := by
  have recalls : Notes.blank.Recalls heap := fun _ _ known => by cases known
  obtain ⟨failure, later, trace, spares, performed, likewise⟩ :=
    Companions.outcomes validator heap Run.fetch
      (fun environment => Run.fetchReading environment (Run.readAnew environment))
      spares_companions ⟨recalls, List.Sublist.refl _, rfl⟩ validation
  rw [Validator.perform_eq_by, performRereading, performed, likewise]
  exact ⟨rfl, rfl, spares.fewer.reverse, withoutReads_reverse spares.others, rfl⟩

theorem validateBatch_rereads (validator : Validator) (heap : Heap) (requested : List TypeKey)
    (roots : List Value) :
    List.Forall₂ Outcome.Rereads (validator.validateBatch heap requested roots).1
        (validator.validateBatchRereading heap requested roots).1
      ∧ (validator.validateBatch heap requested roots).2
        = (validator.validateBatchRereading heap requested roots).2 := by
  induction roots generalizing validator with
  | nil => exact ⟨.nil, rfl⟩
  | cons root rest ih =>
    let outcome := validator.perform heap (.graph root requested)
    let other := validator.performRereading heap (.graph root requested)
    have first : outcome.Rereads other := validator.rereads heap (.graph root requested)
    have later : List.Forall₂ Outcome.Rereads
          (outcome.validator.validateBatch heap requested rest).1
          (other.validator.validateBatchRereading heap requested rest).1
        ∧ (outcome.validator.validateBatch heap requested rest).2
          = (other.validator.validateBatchRereading heap requested rest).2 := by
      rw [← first.validator]
      exact ih outcome.validator
    exact ⟨.cons first later.1, later.2⟩

end Validator

/-- **Remembering is transparent.**  Each property is got as it is at present, and a call that reads
each time finds the same, fails alike and leaves the same validator; so do the calls of a batch. -/
theorem remembering_transparent (validator : Validator) (heap : Heap) :
    (∀ validation, validator.ReadsFaithfully heap validation
      ∧ (validator.perform heap validation).Rereads (validator.performRereading heap validation))
      ∧ ∀ requested roots,
        List.Forall₂ Outcome.Rereads (validator.validateBatch heap requested roots).1
            (validator.validateBatchRereading heap requested roots).1
          ∧ (validator.validateBatch heap requested roots).2
            = (validator.validateBatchRereading heap requested roots).2 :=
  ⟨fun validation =>
      ⟨validator.reads_faithfully heap validation, validator.rereads heap validation⟩,
    validator.validateBatch_rereads heap⟩

end GraphValidation
