/-
**What a call is left to do once it has found its metadata and its groups.**

Every validation begins by finding metadata and groups, and both depend on the configuration alone.
What is left is a task for the engine; where something is not found, the call fails before it has
done anything.

* `Validation` — the calls that validate; `Validator.perform` makes one.
* `Task` — what is left to do; `Validator.task?` finds it without a context.
* `Validator.performBy` — a call whose engine fetches values in some way.
* `performBy_eq` — **a call is its task, carried out**, whatever the way of fetching.
-/
import GraphValidation.Proofs.Calls
import GraphValidation.Proofs.Fetching

namespace GraphValidation

/-- A call for the validation of a graph, of one property, or of a value in place of a property. -/
inductive Validation where
  | graph (root : Value) (requested : List TypeKey)
  | graphAs (root : Value) (type : TypeKey) (requested : List TypeKey)
  | graphById (root : Value) (id : String) (requested : List TypeKey)
  | property (root : Value) (path : String) (requested : List TypeKey)
  | value (type : TypeKey) (name : String) (given : Value) (requested : List TypeKey)

/-- What is left to do when metadata and groups are found. -/
inductive Task where
  | graph (root : Value) (metadata : Option MetaBean) (groups : Groups)
  | property (root : Value) (metadata : MetaBean) (path : Path) (groups : Groups)
  | value (metadata : MetaBean) (name : String) (given : Value) (groups : Groups)

namespace Task

/-- The type of the root. -/
def rootType : Task → TypeKey
  | graph root metadata _ => Validator.rootTypeOf root metadata
  | property _ metadata _ _ => metadata.type
  | value metadata _ _ _ => metadata.type

/-- Where a task starts. -/
def home (task : Task) : Site := ⟨some task.rootType, .null, .root, none⟩

/-- What the engine does for a task. -/
def program (environment : Environment) (fetch : Fetch) : Task → Run Unit
  | graph root metadata groups => Engine.validateGraphBy environment fetch root metadata groups
  | property root metadata path groups =>
    Engine.validatePropertyBy environment fetch root metadata path groups
  | value metadata name given groups =>
    Engine.validatePropertyValueBy environment fetch metadata name given groups

end Task

namespace Validation

/-- Yields what a call is left to do. -/
def prepare (environment : Environment) : Validation → Run Task
  | graph root requested => do
    Validator.requireRoot root
    let metadata ← Validator.rootMetadata environment root
    let groups ← Run.resolveGroups requested
    pure (.graph root metadata groups)
  | graphAs root type requested => do
    Validator.requireRoot root
    let metadata ← Run.metadataOf type
    let groups ← Run.resolveGroups requested
    pure (.graph root (some metadata) groups)
  | graphById root id requested => do
    Validator.requireRoot root
    let metadata ← Run.metadataOfId id
    let groups ← Run.resolveGroups requested
    pure (.graph root (some metadata) groups)
  | property root path requested => do
    Validator.requireRoot root
    let path ← Run.ofExcept .invalidPath (Path.parse path)
    let metadata ← Run.metadataOf root.runtimeType
    let groups ← Run.resolveGroups requested
    pure (.property root metadata path groups)
  | value type name given requested => do
    let metadata ← Run.metadataOf type
    let groups ← Run.resolveGroups requested
    pure (.value metadata name given groups)

/-- Makes a call whose engine fetches values in some way. -/
def program (environment : Environment) (fetch : Fetch) (validation : Validation) : Run Unit := do
  let task ← validation.prepare environment
  Validator.setRootType task.rootType
  task.program environment fetch

end Validation

namespace Validator

/-- Makes a call. -/
def perform (validator : Validator) (heap : Heap) : Validation → Outcome
  | .graph root requested => validator.validate heap root requested
  | .graphAs root type requested => validator.validateAs heap root type requested
  | .graphById root id requested => validator.validateById heap root id requested
  | .property root path requested => validator.validateProperty heap root path requested
  | .value type name given requested => validator.validateValue heap type name given requested

/-- Makes a call whose engine fetches values in some way. -/
def performBy (validator : Validator) (fetch : Environment → Fetch) (heap : Heap)
    (validation : Validation) : Outcome :=
  validator.call heap fun environment => validation.program environment (fetch environment)

/-- The calls are those of the engine over its own way of fetching. -/
theorem perform_eq_by (validator : Validator) (heap : Heap) (validation : Validation) :
    validator.perform heap validation = validator.performBy Run.fetch heap validation := by
  unfold performBy
  cases validation with
  | graph root requested =>
    simp only [perform, validate, validateWith, Engine.validateGraph_eq_by, Validation.program,
      Validation.prepare, bind_assoc, pure_bind]
    rfl
  | graphAs root type requested =>
    simp only [perform, validateAs, validateWith, Engine.validateGraph_eq_by, Validation.program,
      Validation.prepare, bind_assoc, pure_bind]
    rfl
  | graphById root id requested =>
    simp only [perform, validateById, validateWith, Engine.validateGraph_eq_by, Validation.program,
      Validation.prepare, bind_assoc, pure_bind]
    rfl
  | property root path requested =>
    simp only [perform, validateProperty, Engine.validateProperty_eq_by, Validation.program,
      Validation.prepare, bind_assoc, pure_bind]
    rfl
  | value type name given requested =>
    simp only [perform, validateValue, Engine.validatePropertyValue_eq_by, Validation.program,
      Validation.prepare, bind_assoc, pure_bind]
    rfl

/-- What no step of a task changes. -/
def settingFor (validator : Validator) (heap : Heap) (task : Task) : Setting where
  environment := validator.environment heap
  metadata := validator.cache.configuration.build
  rootType := some task.rootType

/-! ### Finding a task without a context -/

/-- The metadata of a type. -/
def metadata? (validator : Validator) (type : TypeKey) : Except ValidationError MetaBean :=
  (validator.cache.configuration.build type).mapError .config

/-- The metadata of the type with an identifier. -/
def metadataOfId? (validator : Validator) (id : String) : Except ValidationError MetaBean :=
  match validator.cache.configuration.typeOfId? id with
  | some type => validator.metadata? type
  | none => .error (.config (.unknownBeanId id))

/-- Fails for null. -/
def root? (root : Value) : Except ValidationError Unit :=
  if root.isNull then .error .nullRoot else .ok ()

/-- What a call is left to do, or the reason why it fails at once. -/
def task? (validator : Validator) (heap : Heap) : Validation → Except ValidationError Task
  | .graph root requested => do
    root? root
    let metadata ← validator.rootMetadata? heap root
    let groups ← validator.groups? requested
    .ok (.graph root metadata groups)
  | .graphAs root type requested => do
    root? root
    let metadata ← validator.metadata? type
    let groups ← validator.groups? requested
    .ok (.graph root (some metadata) groups)
  | .graphById root id requested => do
    root? root
    let metadata ← validator.metadataOfId? id
    let groups ← validator.groups? requested
    .ok (.graph root (some metadata) groups)
  | .property root path requested => do
    root? root
    let path ← (Path.parse path).mapError .invalidPath
    let metadata ← validator.metadata? root.runtimeType
    let groups ← validator.groups? requested
    .ok (.property root metadata path groups)
  | .value type name given requested => do
    let metadata ← validator.metadata? type
    let groups ← validator.groups? requested
    .ok (.value metadata name given groups)

/-- What a call has found when it is left with a task. -/
theorem task?_eq_ok {validator : Validator} {heap : Heap} {validation : Validation} {task : Task}
    (found : validator.task? heap validation = .ok task) :
    match validation with
    | .graph root requested => ∃ metadata groups, validator.rootMetadata? heap root = .ok metadata
      ∧ validator.groups? requested = .ok groups ∧ task = .graph root metadata groups
    | .graphAs root type requested => ∃ metadata groups, validator.metadata? type = .ok metadata
      ∧ validator.groups? requested = .ok groups ∧ task = .graph root (some metadata) groups
    | .graphById root id requested => ∃ metadata groups, validator.metadataOfId? id = .ok metadata
      ∧ validator.groups? requested = .ok groups ∧ task = .graph root (some metadata) groups
    | .property root text requested => ∃ path metadata groups, Path.parse text = .ok path
      ∧ validator.metadata? root.runtimeType = .ok metadata
      ∧ validator.groups? requested = .ok groups ∧ task = .property root metadata path groups
    | .value type name given requested => ∃ metadata groups, validator.metadata? type = .ok metadata
      ∧ validator.groups? requested = .ok groups ∧ task = .value metadata name given groups := by
  cases validation with
  | graph root requested =>
    obtain ⟨_, -, found⟩ := bind_eq_ok.mp found
    obtain ⟨metadata, known, found⟩ := bind_eq_ok.mp found
    obtain ⟨groups, resolved, found⟩ := bind_eq_ok.mp found
    exact ⟨metadata, groups, known, resolved, (Except.ok.inj found).symm⟩
  | graphAs root type requested =>
    obtain ⟨_, -, found⟩ := bind_eq_ok.mp found
    obtain ⟨metadata, known, found⟩ := bind_eq_ok.mp found
    obtain ⟨groups, resolved, found⟩ := bind_eq_ok.mp found
    exact ⟨metadata, groups, known, resolved, (Except.ok.inj found).symm⟩
  | graphById root id requested =>
    obtain ⟨_, -, found⟩ := bind_eq_ok.mp found
    obtain ⟨metadata, known, found⟩ := bind_eq_ok.mp found
    obtain ⟨groups, resolved, found⟩ := bind_eq_ok.mp found
    exact ⟨metadata, groups, known, resolved, (Except.ok.inj found).symm⟩
  | property root text requested =>
    obtain ⟨_, -, found⟩ := bind_eq_ok.mp found
    obtain ⟨path, parsed, found⟩ := bind_eq_ok.mp found
    obtain ⟨metadata, known, found⟩ := bind_eq_ok.mp found
    obtain ⟨groups, resolved, found⟩ := bind_eq_ok.mp found
    refine ⟨path, metadata, groups, ?_, known, resolved, (Except.ok.inj found).symm⟩
    cases result : Path.parse text with
    | ok path =>
      rw [result] at parsed
      cases parsed
      rfl
    | error error =>
      rw [result] at parsed
      cases parsed
  | value type name given requested =>
    obtain ⟨metadata, known, found⟩ := bind_eq_ok.mp found
    obtain ⟨groups, resolved, found⟩ := bind_eq_ok.mp found
    exact ⟨metadata, groups, known, resolved, (Except.ok.inj found).symm⟩

/-- In every context with the configuration of a validator, a step yields a result and changes
nothing but the metadata that is kept. -/
def Yields {α : Type} (validator : Validator) (step : Run α) (result : Except ValidationError α) :
    Prop :=
  ∀ context : Context, context.cache.configuration = validator.cache.configuration →
    ∃ cache : MetadataCache, cache.configuration = validator.cache.configuration
      ∧ step context = match result with
        | .ok a => .ok a { context with cache }
        | .error error => .error error { context with cache }

namespace Yields

variable {validator : Validator} {α β : Type}

theorem pure (a : α) : validator.Yields (Pure.pure a) (.ok a) :=
  fun context alike => ⟨context.cache, alike, rfl⟩

theorem throw (error : ValidationError) :
    validator.Yields (MonadExcept.throw error : Run α) (.error error) :=
  fun context alike => ⟨context.cache, alike, rfl⟩

theorem bind {step : Run α} {next : α → Run β} {result : Except ValidationError α}
    {later : α → Except ValidationError β} (first : validator.Yields step result)
    (second : ∀ a, validator.Yields (next a) (later a)) :
    validator.Yields (step >>= next) (result >>= later) := by
  intro context alike
  obtain ⟨cache, alike, found⟩ := first context alike
  cases result with
  | error error => exact ⟨cache, alike, Run.bind_of_error found⟩
  | ok a =>
    obtain ⟨last, alike, ending⟩ := second a { context with cache } alike
    exact ⟨last, alike, (Run.bind_of_ok found).trans ending⟩

theorem ofExcept {ε : Type} (wrap : ε → ValidationError) (result : Except ε α) :
    validator.Yields (Run.ofExcept wrap result) (result.mapError wrap) := by
  cases result with
  | ok a => exact pure a
  | error error => exact throw (wrap error)

theorem requireRoot (root : Value) :
    validator.Yields (Validator.requireRoot root) (root? root) := by
  unfold Validator.requireRoot root?
  cases root.isNull with
  | true => exact throw .nullRoot
  | false => exact pure ()

theorem metadataOf (type : TypeKey) :
    validator.Yields (Run.metadataOf type) (validator.metadata? type) := by
  intro context alike
  refine ⟨(context.cache.get type).2, by rw [MetadataCache.get_snd_configuration, alike], ?_⟩
  unfold Validator.metadata?
  rw [← alike]
  cases built : context.cache.configuration.build type with
  | ok metadata => exact metadataOf_of_ok built
  | error error => exact metadataOf_of_error built

theorem metadataOfId (id : String) :
    validator.Yields (Run.metadataOfId id) (validator.metadataOfId? id) := by
  intro context alike
  unfold Validator.metadataOfId?
  rw [← alike]
  cases known : context.cache.configuration.typeOfId? id with
  | some type =>
    have same : Run.metadataOfId id context = Run.metadataOf type context := by
      simp only [Run.metadataOfId, MetadataCache.getById, known, Run.metadataOf]
    have yields : validator.Yields (Run.metadataOf type) _ := metadataOf type
    obtain ⟨cache, kept, found⟩ := yields context alike
    exact ⟨cache, kept.trans alike.symm, same.trans found⟩
  | none =>
    refine ⟨context.cache, rfl, ?_⟩
    simp only [Run.metadataOfId, MetadataCache.getById, known]

theorem rootMetadata (heap : Heap) (root : Value) :
    validator.Yields (Validator.rootMetadata (validator.environment heap) root)
      (validator.rootMetadata? heap root) := by
  unfold Validator.rootMetadata Validator.rootMetadata?
  cases Engine.elements? (validator.environment heap) root with
  | some _ => exact pure none
  | none =>
    have yields : validator.Yields (some <$> Run.metadataOf root.runtimeType)
        (validator.metadata? root.runtimeType >>= fun metadata => .ok (some metadata)) := by
      rw [map_eq_pure_bind]
      exact bind (metadataOf root.runtimeType) fun metadata => pure (some metadata)
    unfold Validator.metadata? at yields
    cases built : validator.cache.configuration.build root.runtimeType <;>
      rw [built] at yields <;> exact yields

theorem resolveGroups (requested : List TypeKey) :
    validator.Yields (Run.resolveGroups requested) (validator.groups? requested) := by
  intro context alike
  refine ⟨context.cache, alike, ?_⟩
  rw [resolveGroups_apply requested context alike]
  cases validator.groups? requested <;> rfl

/-- **What a call is left to do depends on the configuration alone.** -/
theorem prepare (heap : Heap) (validation : Validation) :
    validator.Yields (validation.prepare (validator.environment heap))
      (validator.task? heap validation) := by
  unfold Validation.prepare Validator.task?
  cases validation with
  | graph root requested =>
    refine bind (requireRoot root) fun _ => bind (rootMetadata heap root) fun _ => ?_
    exact bind (resolveGroups requested) fun _ => pure _
  | graphAs root type requested =>
    refine bind (requireRoot root) fun _ => bind (metadataOf type) fun _ => ?_
    exact bind (resolveGroups requested) fun _ => pure _
  | graphById root id requested =>
    refine bind (requireRoot root) fun _ => bind (metadataOfId id) fun _ => ?_
    exact bind (resolveGroups requested) fun _ => pure _
  | property root path requested =>
    refine bind (requireRoot root) fun _ => bind (ofExcept .invalidPath _) fun _ => ?_
    refine bind (metadataOf root.runtimeType) fun _ => ?_
    exact bind (resolveGroups requested) fun _ => pure _
  | value type name given requested =>
    refine bind (metadataOf type) fun _ => ?_
    exact bind (resolveGroups requested) fun _ => pure _

end Yields

end Validator

/-- The context that a call has found its task in. -/
def Context.ready (cache : MetadataCache) (rootType : TypeKey) : Context :=
  { Context.start cache with rootType := some rootType }

/-- **A call is its task, carried out**, whatever the way of fetching.  Without a task it fails, and
has found and done nothing. -/
theorem performBy_eq (validator : Validator) (heap : Heap) (validation : Validation) :
    ∃ cache : MetadataCache, cache.configuration = validator.cache.configuration
      ∧ ∀ fetch : Environment → Fetch, validator.performBy fetch heap validation
        = validator.outcomeAt (match validator.task? heap validation with
          | .ok task =>
            task.program (validator.environment heap) (fetch (validator.environment heap))
              (.ready cache task.rootType)
          | .error error => .error error (.start cache)) := by
  obtain ⟨cache, alike, found⟩ :=
    Validator.Yields.prepare heap validation (.start validator.cache) rfl
  refine ⟨cache, alike, fun fetch => ?_⟩
  rw [Validator.performBy, call_eq_outcomeAt]
  unfold Validation.program
  cases known : validator.task? heap validation with
  | error error =>
    rw [known] at found
    rw [Run.bind_of_error found]
    rfl
  | ok task =>
    rw [known] at found
    rw [Run.bind_of_ok found]
    rfl

end GraphValidation
