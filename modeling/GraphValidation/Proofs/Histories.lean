/-
**A validator answers as if it were new.**

A validator keeps the metadata that its calls have built, and drops it when a mapping is added.
What it keeps is what its configuration builds, so no call can tell which calls came before it,
apart from the mappings that they added.

* `Sides.cached` — two engines that differ in the metadata that they keep.
* `perform_alike` — calls whose configurations build the same find and do the same.
* `Call`, `Validator.answer` — all that a validator can be asked, and what it answers.
* `Validator.answer_after` — **after any calls a validator answers as a new one** with the mappings
  that were added.
-/
import GraphValidation.Proofs.Asking

namespace GraphValidation

/-! ### The outcome of runs side by side -/

/-- What comes of two runs that have stayed abreast: the same, but for what their memories hold. -/
theorem Sides.Abreast.outcomes {sides : Sides}
    {first second : EStateM.Result ValidationError Context Unit}
    (abreast : sides.Abreast first second) (validator other : Validator) :
    ∃ (failure : Option ValidationError) (heard : List Violation) (memory likewise : Memory),
      sides.related memory likewise
        ∧ validator.outcomeAt first
          = ⟨failure, heard, memory.journal.reverse, { validator with cache := memory.cache }⟩
        ∧ other.outcomeAt second
          = ⟨failure, heard, likewise.journal.reverse, { other with cache := likewise.cache }⟩ := by
  cases abreast with
  | ok _ later related => exact ⟨none, later.reported.reverse, _, _, related, rfl, rfl⟩
  | error error later related =>
    exact ⟨some error, later.reported.reverse, _, _, related, rfl, rfl⟩

/-! ### Engines that keep different metadata -/

/-- The same answers and the same journal, and metadata that is kept for two configurations. -/
structure Memory.Cached (configuration other : Configuration) (first second : Memory) : Prop where
  answers : first.answers = second.answers
  journal : first.journal = second.journal
  configuration : first.cache.configuration = configuration
  likewise : second.cache.configuration = other

/-- Two engines that differ in the metadata that they keep, for two configurations. -/
def Sides.cached (setting : Setting) (configuration other : Configuration) : Sides where
  setting
  asked _ := True
  first := Run.fetch setting.environment
  second := Run.fetch setting.environment
  related := Memory.Cached configuration other

section Cached

variable {setting : Setting} {configuration other : Configuration}

theorem Memory.Cached.noting {first second : Memory}
    (related : Memory.Cached configuration other first second) (events : List Event) :
    Memory.Cached configuration other (first.noting events) (second.noting events) :=
  ⟨related.answers, congrArg (events ++ ·) related.journal, related.configuration,
    related.likewise⟩

theorem Sides.cached_notesReads : (Sides.cached setting configuration other).NotesReads :=
  fun _ _ related _ _ _ => related.noting _

/-- Asking does not look at the metadata that is kept. -/
theorem Sides.cached_ask (site : Site) (question : Question) (kind : ElementKind) :
    (Sides.cached setting configuration other).Keeps site
      (Run.ask setting.environment question kind) (Run.ask setting.environment question kind) := by
  refine ⟨ask_goes setting question kind, fun context first second _ related _ => ?_⟩
  rw [ask_recalling, ask_recalling]
  unfold Memory.ask
  rw [← related.answers]
  split
  · exact .ok _ context related
  · split
    · refine .ok _ context { related.noting [_] with answers := ?_ }
      exact congrArg ((context.site.key kind question, _) :: ·) related.answers
    · exact .error _ context (related.noting [_])

theorem Sides.cached_lawful
    (builds : ∀ type, configuration.build type = other.build type) :
    (Sides.cached setting configuration other).Lawful where
  evaluates related _ _ _ _ := related.noting _
  enters related _ _ _ := related.noting _
  builds related type := by
    rw [related.configuration, related.likewise]
    exact builds type
  consults related type :=
    { related with
      configuration := (MetadataCache.get_snd_configuration _ _).trans related.configuration
      likewise := (MetadataCache.get_snd_configuration _ _).trans related.likewise }
  goes access site := fetch_goes setting access site
  fetches access site _ :=
    Sides.fetchAsking (fun question => Sides.cached_ask site question access.kind)
      Sides.cached_notesReads

end Cached

/-! ### Calls on validators that build the same -/

/-- What a call has found and done, apart from the validator that it leaves. -/
structure Account where
  failure : Option ValidationError
  heard : List Violation
  journal : List Event

/-- The account of a call. -/
def Outcome.account (outcome : Outcome) : Account :=
  ⟨outcome.failure, outcome.heard, outcome.journal⟩

/-- The validators treat values alike, and their configurations build the same metadata. -/
structure Validator.BuildsAlike (validator other : Validator) : Prop where
  environment : ∀ heap, validator.environment heap = other.environment heap
  builds : ∀ type,
    validator.cache.configuration.build type = other.cache.configuration.build type

/-- **Calls with one task find and do the same**, whatever metadata the validators keep. -/
theorem perform_alike {validator other : Validator} (alike : validator.BuildsAlike other)
    (heap : Heap) (validation : Validation)
    (tasks : validator.task? heap validation = other.task? heap validation) :
    (validator.perform heap validation).account = (other.perform heap validation).account
      ∧ (∃ cache : MetadataCache, cache.configuration = validator.cache.configuration
        ∧ (validator.perform heap validation).validator = { validator with cache }) := by
  rw [Validator.perform_eq_by, Validator.perform_eq_by]
  obtain ⟨cache, kept, performed⟩ := performBy_eq validator heap validation
  obtain ⟨another, likewise, performedOther⟩ := performBy_eq other heap validation
  rw [performed, performedOther, ← tasks, ← alike.environment]
  cases validator.task? heap validation with
  | error error => exact ⟨rfl, cache, kept, rfl⟩
  | ok task =>
    let setting := validator.settingFor heap task
    have lawful : (Sides.cached setting validator.cache.configuration
        other.cache.configuration).Lawful := Sides.cached_lawful alike.builds
    have leads : (Sides.cached setting validator.cache.configuration
        other.cache.configuration).Leads (fun here => here = task.home) _ _ _ :=
      lawful.program Sides.cached_notesReads (fun _ => trivial) task rfl rfl
    have abreast := leads.abreast (.ready cache task.rootType) ⟨[], [], cache⟩ ⟨[], [], another⟩ rfl
      ⟨rfl, rfl, kept, likewise⟩ (setting.encloses_everything _)
    obtain ⟨failure, heard, memory, memoryOther, related, shown, shownOther⟩ :=
      abreast.outcomes validator other
    have ran : validator.outcomeAt (task.program (validator.environment heap)
        (Run.fetch (validator.environment heap)) (.ready cache task.rootType)) = _ := shown
    have ranOther : other.outcomeAt (task.program (validator.environment heap)
        (Run.fetch (validator.environment heap)) (.ready another task.rootType)) = _ := shownOther
    dsimp only
    rw [ran, ranOther, Outcome.account, Outcome.account, related.journal]
    exact ⟨rfl, memory.cache, related.configuration, rfl⟩

/-! ### Histories -/

/-- What a validator can be asked for. -/
inductive Call where
  | validation (heap : Heap) (validation : Validation)
  | batch (heap : Heap) (requested : List TypeKey) (roots : List Value)
  | metaBean (type : TypeKey)
  | describe (type : TypeKey)
  | addMapping (source : DeclarationRegistry)

/-- The mapping that a call adds. -/
def Call.mapping? : Call → Option DeclarationRegistry
  | addMapping source => some source
  | _ => none

/-- What a validator answers. -/
inductive Answer where
  | account (account : Account)
  | accounts (accounts : List Account)
  | metadata (found : Except ConfigError MetaBean)
  | description (found : Except ConfigError BeanDescriptor)
  | added

namespace Validator

/-- The answer to a call, and the validator after it. -/
def answer (validator : Validator) : Call → Answer × Validator
  | .validation heap validation =>
    let outcome := validator.perform heap validation
    (.account outcome.account, outcome.validator)
  | .batch heap requested roots =>
    let (outcomes, later) := validator.validateBatch heap requested roots
    (.accounts (outcomes.map Outcome.account), later)
  | .metaBean type =>
    let (found, later) := validator.metaBean type
    (.metadata found, later)
  | .describe type =>
    let (found, later) := validator.describe type
    (.description found, later)
  | .addMapping source => (.added, validator.addMapping source)

/-- The validator after some calls. -/
def after (validator : Validator) (calls : List Call) : Validator :=
  calls.foldl (fun validator call => (validator.answer call).2) validator

/-- A new validator, with some more mappings. -/
def renewed (validator : Validator) (added : List DeclarationRegistry) : Validator :=
  .ofConfiguration
    { validator.cache.configuration with
      mappings := validator.cache.configuration.mappings ++ added }
    validator.resolver validator.interpolator validator.mapsLikeBeans

/-- Validators that differ in nothing but the metadata that they keep. -/
structure Like (validator other : Validator) : Prop where
  configuration : validator.cache.configuration = other.cache.configuration
  resolver : validator.resolver = other.resolver
  interpolator : validator.interpolator = other.interpolator
  mapsLikeBeans : validator.mapsLikeBeans = other.mapsLikeBeans

namespace Like

variable {validator other third : Validator}

theorem refl (validator : Validator) : validator.Like validator := ⟨rfl, rfl, rfl, rfl⟩

theorem trans (like : validator.Like other) (likewise : other.Like third) : validator.Like third :=
  ⟨like.configuration.trans likewise.configuration, like.resolver.trans likewise.resolver,
    like.interpolator.trans likewise.interpolator,
    like.mapsLikeBeans.trans likewise.mapsLikeBeans⟩

theorem symm (like : validator.Like other) : other.Like validator :=
  ⟨like.configuration.symm, like.resolver.symm, like.interpolator.symm, like.mapsLikeBeans.symm⟩

/-- A validator that keeps other metadata of its configuration. -/
theorem of_cache (cache : MetadataCache)
    (kept : cache.configuration = validator.cache.configuration) :
    Like { validator with cache } validator := ⟨kept, rfl, rfl, rfl⟩

theorem buildsAlike (like : validator.Like other) : validator.BuildsAlike other where
  environment heap := by
    simp only [environment, types, like.configuration, like.resolver, like.interpolator,
      like.mapsLikeBeans]
  builds type := by rw [like.configuration]

/-- What a call is left to do does not depend on the metadata that is kept. -/
theorem task? (like : validator.Like other) (heap : Heap) (validation : Validation) :
    validator.task? heap validation = other.task? heap validation := by
  obtain ⟨⟨configuration, built, coherent⟩, resolver, interpolator, mapsLikeBeans⟩ := validator
  obtain ⟨⟨configuration', built', coherent'⟩, resolver', interpolator', mapsLikeBeans'⟩ := other
  obtain ⟨rfl, rfl, rfl, rfl⟩ := like
  cases validation <;> rfl

theorem perform (like : validator.Like other) (heap : Heap) (validation : Validation) :
    (validator.perform heap validation).account = (other.perform heap validation).account
      ∧ (validator.perform heap validation).validator.Like validator := by
  obtain ⟨account, cache, kept, later⟩ :=
    perform_alike like.buildsAlike heap validation (like.task? heap validation)
  rw [later]
  exact ⟨account, of_cache cache kept⟩

theorem validateBatch (like : validator.Like other) (heap : Heap) (requested : List TypeKey)
    (roots : List Value) :
    (validator.validateBatch heap requested roots).1.map Outcome.account
        = (other.validateBatch heap requested roots).1.map Outcome.account
      ∧ (validator.validateBatch heap requested roots).2.Like validator := by
  induction roots generalizing validator other with
  | nil => exact ⟨rfl, refl validator⟩
  | cons root rest ih =>
    obtain ⟨account, later⟩ := like.perform heap (.graph root requested)
    obtain ⟨-, laterOther⟩ := like.symm.perform heap (.graph root requested)
    obtain ⟨accounts, last⟩ := ih (later.trans (like.trans laterOther.symm))
    exact ⟨congrArg₂ List.cons account accounts, last.trans later⟩

theorem metaBean (like : validator.Like other) (type : TypeKey) :
    (validator.metaBean type).1 = (other.metaBean type).1
      ∧ (validator.metaBean type).2.Like validator := by
  refine ⟨?_, of_cache _ (MetadataCache.get_snd_configuration _ _)⟩
  have found : ∀ validator : Validator,
      (validator.metaBean type).1 = validator.cache.configuration.build type := fun validator =>
    MetadataCache.get_fst validator.cache type
  rw [found, found, like.configuration]

/-- **Validators that differ in the metadata that they keep answer alike.** -/
theorem answer (like : validator.Like other) (call : Call) :
    (validator.answer call).1 = (other.answer call).1 := by
  cases call with
  | validation heap validation => exact congrArg Answer.account (like.perform heap validation).1
  | batch heap requested roots =>
    exact congrArg Answer.accounts (like.validateBatch heap requested roots).1
  | metaBean type => exact congrArg Answer.metadata (like.metaBean type).1
  | describe type =>
    exact congrArg (fun found => Answer.description (Except.map MetaBean.describe found))
      (like.metaBean type).1
  | addMapping source => rfl

/-- A call adds its mapping to the configuration and changes nothing else. -/
theorem answer_later (validator : Validator) (call : Call) :
    (validator.answer call).2.Like (validator.renewed call.mapping?.toList) := by
  have kept : validator.Like (validator.renewed []) :=
    ⟨by simp [renewed, ofConfiguration, MetadataCache.ofConfiguration], rfl, rfl, rfl⟩
  cases call with
  | validation heap validation => exact ((refl validator).perform heap validation).2.trans kept
  | batch heap requested roots =>
    exact ((refl validator).validateBatch heap requested roots).2.trans kept
  | metaBean type => exact ((refl validator).metaBean type).2.trans kept
  | describe type => exact ((refl validator).metaBean type).2.trans kept
  | addMapping source => exact ⟨rfl, rfl, rfl, rfl⟩

/-- Mappings that are added one after the other. -/
theorem renewed {added : List DeclarationRegistry} (like : validator.Like (other.renewed added))
    (more : List DeclarationRegistry) :
    (validator.renewed more).Like (other.renewed (added ++ more)) where
  configuration := by
    simp only [Validator.renewed, ofConfiguration, MetadataCache.ofConfiguration,
      like.configuration, List.append_assoc]
  resolver := like.resolver
  interpolator := like.interpolator
  mapsLikeBeans := like.mapsLikeBeans

/-- After any calls a validator differs from a new one in the metadata that it keeps at most. -/
theorem after (validator : Validator) (calls : List Call) :
    (validator.after calls).Like (validator.renewed (calls.filterMap Call.mapping?)) := by
  induction calls generalizing validator with
  | nil =>
    exact ⟨by simp [Validator.after, Validator.renewed, ofConfiguration,
      MetadataCache.ofConfiguration], rfl, rfl, rfl⟩
  | cons call rest ih =>
    have mappings : (call :: rest).filterMap Call.mapping?
        = call.mapping?.toList ++ rest.filterMap Call.mapping? := by
      cases called : call.mapping? <;> simp [called]
    rw [mappings]
    exact (ih (validator.answer call).2).trans ((answer_later validator call).renewed _)

end Like

/-- **After any calls, failed ones included, a validator answers as a new one** whose configuration
has the mappings that the calls have added. -/
theorem answer_after (validator : Validator) (before : List Call) (call : Call) :
    ((validator.after before).answer call).1
      = ((validator.renewed (before.filterMap Call.mapping?)).answer call).1 :=
  (Like.after validator before).answer call

end Validator

end GraphValidation
