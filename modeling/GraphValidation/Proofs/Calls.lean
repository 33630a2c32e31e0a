/-
**A validation is its plan, carried out.**

Before it goes through the graph, a validation finds the metadata of its root and the groups that it
is asked for.  With these it has a plan, and what it finds and does is what the plan says.

* `Validator.plan` — the plan of a validation, or the reason why there is none.
* `Outcome.Shows` — an outcome has the failure, the violations and the deeds of a ledger.
* `validate_shows` — **a validation shows the run of its plan**.
* `validate_of_unplanned` — without a plan it fails, and has found and done nothing.
-/
import GraphValidation.Proofs.Duties
import GraphValidation.Proofs.Itinerary
import GraphValidation.Proofs.Passage
import GraphValidation.Validator

namespace GraphValidation

/-- What a validation is going to do. -/
structure Plan where
  setting : Setting
  root : Value
  /-- The metadata of a root that is validated as a whole. -/
  metadata : Option MetaBean
  groups : Groups

/-- The stops of each pass. -/
def Plan.stops (plan : Plan) : List (Except ValidationError Stop) :=
  plan.setting.itinerary plan.root plan.metadata

/-- What comes of a plan. -/
def Plan.run (plan : Plan) : EStateM.Result ValidationError Ledger Unit :=
  plan.setting.call plan.stops plan.groups .blank

/-- An outcome has the failure, the violations and the deeds of a result. -/
def Outcome.Shows (outcome : Outcome) : EStateM.Result ValidationError Ledger Unit → Prop
  | .ok _ ledger => outcome.failure = none ∧ outcome.heard = ledger.reported.reverse
    ∧ outcome.journal.filter Event.isDeed = ledger.deeds.reverse
  | .error error ledger => outcome.failure = some error ∧ outcome.heard = ledger.reported.reverse
    ∧ outcome.journal.filter Event.isDeed = ledger.deeds.reverse

theorem Outcome.Shows.heard_eq {outcome : Outcome} {entry : Entry Unit} {ledger : Ledger}
    (shows : outcome.Shows (entry ledger)) :
    outcome.heard = (entry.after ledger).reported.reverse := by
  unfold Entry.after
  generalize entry ledger = result at shows
  cases result with
  | ok _ later => exact shows.2.1
  | error error later => exact shows.2.1

/-- A validation that shows a result and succeeds shows a ledger. -/
theorem Outcome.Shows.of_success {outcome : Outcome}
    {result : EStateM.Result ValidationError Ledger Unit} (shows : outcome.Shows result)
    (succeeded : outcome.failure = none) :
    ∃ ledger, result = .ok () ledger ∧ outcome.heard = ledger.reported.reverse
      ∧ outcome.journal.filter Event.isDeed = ledger.deeds.reverse := by
  cases result with
  | ok _ ledger => exact ⟨ledger, rfl, shows.2⟩
  | error error ledger =>
    rw [shows.1] at succeeded
    cases succeeded

theorem Outcome.Shows.alike {outcome other : Outcome}
    {result : EStateM.Result ValidationError Ledger Unit} (shows : outcome.Shows result)
    (likewise : other.Shows result) : outcome.failure = other.failure ∧ outcome.heard = other.heard
      ∧ outcome.journal.filter Event.isDeed = other.journal.filter Event.isDeed := by
  cases result with
  | ok _ ledger =>
    obtain ⟨failure, heard, deeds⟩ := likewise
    rw [failure, heard, deeds]
    exact shows
  | error error ledger =>
    obtain ⟨failure, heard, deeds⟩ := likewise
    rw [failure, heard, deeds]
    exact shows

namespace Validator

/-- The type of a root: that of its metadata, if it is validated as a whole. -/
def rootTypeOf (root : Value) (metadata : Option MetaBean) : TypeKey :=
  match metadata with
  | some metadata => metadata.type
  | none => root.runtimeType

/-- What no step of a validation changes. -/
def setting (validator : Validator) (heap : Heap) (root : Value) (metadata : Option MetaBean) :
    Setting where
  environment := validator.environment heap
  metadata := validator.cache.configuration.build
  rootType := some (rootTypeOf root metadata)

/-- The metadata of a root that is validated as a whole, none for a container. -/
def rootMetadata? (validator : Validator) (heap : Heap) (root : Value) :
    Except ValidationError (Option MetaBean) :=
  match Engine.elements? (validator.environment heap) root with
  | some _ => .ok none
  | none => match validator.cache.configuration.build root.runtimeType with
    | .ok metadata => .ok (some metadata)
    | .error error => .error (.config error)

/-- What a request for groups asks for. -/
def groups? (validator : Validator) (requested : List TypeKey) : Except ValidationError Groups :=
  match GroupRequest.resolve validator.types validator.cache.configuration.groupSequence
      requested with
  | .ok groups => .ok groups
  | .error error => .error (.config error)

/-- The plan of a validation, or the reason why there is none. -/
def plan (validator : Validator) (heap : Heap) (root : Value) (requested : List TypeKey) :
    Except ValidationError Plan :=
  if root.isNull then .error .nullRoot
  else match validator.rootMetadata? heap root with
    | .error error => .error error
    | .ok metadata => match validator.groups? requested with
      | .error error => .error error
      | .ok groups => .ok ⟨validator.setting heap root metadata, root, metadata, groups⟩

theorem plan_eq_ok {validator : Validator} {heap : Heap} {root : Value} {requested : List TypeKey}
    {plan : Plan} (planned : validator.plan heap root requested = .ok plan) :
    ∃ metadata groups, root.isNull = false ∧ validator.rootMetadata? heap root = .ok metadata
      ∧ validator.groups? requested = .ok groups
      ∧ plan = ⟨validator.setting heap root metadata, root, metadata, groups⟩ := by
  unfold Validator.plan at planned
  cases null : root.isNull with
  | true => simp [null] at planned
  | false =>
    simp only [null, Bool.false_eq_true, if_false] at planned
    cases known : validator.rootMetadata? heap root with
    | error error => simp [known] at planned
    | ok metadata =>
      cases resolved : validator.groups? requested with
      | error error => simp [known, resolved] at planned
      | ok groups =>
        simp only [known, resolved, Except.ok.injEq] at planned
        exact ⟨metadata, groups, rfl, rfl, rfl, planned.symm⟩

/-- A validation with so many levels, and with another step below them. -/
def validateOver (validator : Validator) (levels : Nat) (bottom : Value → MetaBean → Run Unit)
    (heap : Heap) (root : Value) (requested : List TypeKey) : Outcome :=
  validator.call heap fun environment => do
    requireRoot root
    let metadata ← rootMetadata environment root
    let groups ← Run.resolveGroups requested
    setRootType (rootTypeOf root metadata)
    Engine.forEachGroup groups
      (Engine.passBy environment (Engine.validateBeanOver environment bottom levels) root metadata)

/-- Below its levels a validation does nothing. -/
theorem validate_eq_over (validator : Validator) (heap : Heap) (root : Value)
    (requested : List TypeKey) :
    validator.validate heap root requested
      = validator.validateOver (Engine.levels (validator.environment heap) root)
          (fun _ _ => pure ()) heap root requested := by
  unfold validate validateOver call validateWith Engine.validateGraph
  simp only [validateBean_eq_over]
  rfl

end Validator

/-! ### Carrying out a plan -/

section Planned

variable {validator : Validator} {heap : Heap} {root : Value} {requested : List TypeKey}
  {plan : Plan}

/-- The outcome of a call whose step has come to a result. -/
def Validator.outcomeAt (validator : Validator) :
    EStateM.Result ValidationError Context Unit → Outcome
  | .ok _ later => validator.outcomeOf none later
  | .error error later => validator.outcomeOf (some error) later

theorem call_eq_outcomeAt (validator : Validator) (heap : Heap) (step : Environment → Run Unit) :
    validator.call heap step
      = validator.outcomeAt (step (validator.environment heap) (.start validator.cache)) := by
  unfold Validator.call
  cases step (validator.environment heap) (.start validator.cache) <;> rfl

theorem outcomeAt_shows {step : Run Unit} {context : Context} {entry : Entry Unit}
    {post : Unit → Context → Prop} (tracked : Tracks step context entry post) :
    (validator.outcomeAt (step context)).Shows (entry context.ledger) := by
  unfold Tracks at tracked
  generalize step context = result at tracked
  generalize entry context.ledger = shown at tracked
  cases tracked with
  | ok _ later => exact ⟨rfl, rfl, List.filter_reverse⟩
  | error error later => exact ⟨rfl, rfl, List.filter_reverse⟩

theorem rootMetadata_apply (validator : Validator) (heap : Heap) (root : Value) :
    ∃ cache : MetadataCache, cache.configuration = validator.cache.configuration
      ∧ Validator.rootMetadata (validator.environment heap) root (.start validator.cache)
        = match validator.rootMetadata? heap root with
          | .ok metadata => .ok metadata { Context.start validator.cache with cache }
          | .error error => .error error { Context.start validator.cache with cache } := by
  unfold Validator.rootMetadata Validator.rootMetadata?
  cases Engine.elements? (validator.environment heap) root with
  | some _ => exact ⟨validator.cache, rfl, rfl⟩
  | none =>
    refine ⟨(validator.cache.get root.runtimeType).2, MetadataCache.get_snd_configuration _ _, ?_⟩
    cases built : validator.cache.configuration.build root.runtimeType with
    | ok metadata =>
      have ran : Run.metadataOf root.runtimeType (.start validator.cache) = .ok metadata _ :=
        metadataOf_of_ok built
      simp only [map_eq_pure_bind, Run.bind_apply, ran]
      rfl
    | error error =>
      have ran : Run.metadataOf root.runtimeType (.start validator.cache)
          = .error (.config error) _ := metadataOf_of_error built
      simp only [map_eq_pure_bind, Run.bind_apply, ran]
      rfl

/-- What a request asks for depends on the configuration alone. -/
theorem resolveGroups_apply (requested : List TypeKey) (context : Context)
    (alike : context.cache.configuration = validator.cache.configuration) :
    Run.resolveGroups requested context
      = match validator.groups? requested with
        | .ok groups => .ok groups context
        | .error error => .error error context := by
  simp only [Run.resolveGroups, Run.bind_apply, Run.get_apply, Validator.groups?, Validator.types,
    alike]
  cases GroupRequest.resolve validator.cache.configuration.types
    validator.cache.configuration.groupSequence requested <;> rfl

/-- Before it goes through the graph, a validation makes its plan. -/
theorem plan_apply (validator : Validator) (heap : Heap) (root : Value)
    (requested : List TypeKey) :
    ∃ cache : MetadataCache, cache.configuration = validator.cache.configuration
      ∧ ∀ step : Option MetaBean → Groups → Run Unit, (do
          Validator.requireRoot root
          let metadata ← Validator.rootMetadata (validator.environment heap) root
          let groups ← Run.resolveGroups requested
          Validator.setRootType (Validator.rootTypeOf root metadata)
          step metadata groups : Run Unit) (.start validator.cache)
        = match validator.plan heap root requested with
          | .ok plan => step plan.metadata plan.groups
            { Context.start validator.cache with cache, rootType := plan.setting.rootType }
          | .error error => .error error { Context.start validator.cache with cache } := by
  unfold Validator.plan Validator.requireRoot
  cases root.isNull with
  | true => exact ⟨validator.cache, rfl, fun _ => rfl⟩
  | false =>
    obtain ⟨cache, alike, found⟩ := rootMetadata_apply validator heap root
    refine ⟨cache, alike, fun step => ?_⟩
    simp only [Bool.false_eq_true, if_false, Run.bind_apply, Run.pure_apply, found]
    cases validator.rootMetadata? heap root with
    | error error => rfl
    | ok metadata =>
      have resolved :=
        resolveGroups_apply requested { Context.start validator.cache with cache } alike
      simp only [resolved]
      cases validator.groups? requested with
      | error error => rfl
      | ok groups => rfl

/-- A validation goes through the graph as its plan says. -/
theorem validateOver_eq (validator : Validator) (levels : Nat)
    (bottom : Value → MetaBean → Run Unit) (heap : Heap) (root : Value)
    (requested : List TypeKey) :
    ∃ cache : MetadataCache, cache.configuration = validator.cache.configuration
      ∧ validator.validateOver levels bottom heap root requested
        = validator.outcomeAt (match validator.plan heap root requested with
          | .ok plan =>
            Engine.forEachGroup plan.groups (Engine.passBy (validator.environment heap)
                (Engine.validateBeanOver (validator.environment heap) bottom levels) root
                plan.metadata)
              { Context.start validator.cache with cache, rootType := plan.setting.rootType }
          | .error error => .error error { Context.start validator.cache with cache }) := by
  obtain ⟨cache, alike, applied⟩ := plan_apply validator heap root requested
  have applied := applied fun metadata groups =>
    Engine.forEachGroup groups (Engine.passBy (validator.environment heap)
      (Engine.validateBeanOver (validator.environment heap) bottom levels) root metadata)
  refine ⟨cache, alike, ?_⟩
  rw [Validator.validateOver, call_eq_outcomeAt]
  dsimp only at applied ⊢
  rw [applied]

/-- At its start a call stands in its setting. -/
theorem starting_stands {metadata : Option MetaBean} {asked : Site → Prop} {cache : MetadataCache}
    (alike : cache.configuration = validator.cache.configuration) :
    Context.Stands (validator.setting heap root metadata) asked
      { Context.start validator.cache with
        cache, rootType := (validator.setting heap root metadata).rootType } where
  rootType := rfl
  override := rfl
  isolated := rfl
  count := rfl
  metadata type := congrArg (fun configuration => configuration.build type) alike
  lastRead _ read := by cases read
  answers _ _ _ _ _ known := by cases known

/-- **A validation shows the run of its plan**, also with more levels and another step below them,
where the tour comes to the same stops. -/
theorem validateOver_shows (planned : validator.plan heap root requested = .ok plan)
    {asked : Site → Prop} {bottom : Value → MetaBean → Run Unit} {below : Tour}
    (levels : Nat) (consistent : plan.setting.Consistent asked)
    (conducts : plan.setting.Conducts asked bottom below)
    (same : (Setting.walk (plan.setting.tourOver below levels) []
      (plan.setting.starts plan.root plan.metadata)).2 = plan.stops)
    (asks : ∀ stop, .ok stop ∈ plan.stops → plan.setting.AsksWithin asked stop) :
    (validator.validateOver levels bottom heap root requested).Shows plan.run := by
  obtain ⟨metadata, groups, -, -, -, made⟩ := Validator.plan_eq_ok planned
  obtain ⟨cache, alike, applied⟩ := validateOver_eq validator levels bottom heap root requested
  have environment : plan.setting.environment = validator.environment heap := by
    rw [made]
    rfl
  have isRoot : plan.root = root := by rw [made]
  have resting : plan.setting.Resting asked
      { Context.start validator.cache with cache, rootType := plan.setting.rootType } := by
    rw [made]
    exact ⟨.defaultGroup, starting_stands alike, rfl⟩
  have tracked := passes_track (validateBeanOver_follows consistent conducts levels) plan.root
    plan.metadata plan.groups (by rw [same]; exact asks) resting
  rw [same, environment, isRoot] at tracked
  rw [applied, planned]
  have blank : Context.ledger { Context.start validator.cache with
      cache, rootType := plan.setting.rootType } = .blank := rfl
  rw [Plan.run, ← blank]
  exact outcomeAt_shows tracked

/-- **A validation shows the run of its plan.** -/
theorem validate_shows (planned : validator.plan heap root requested = .ok plan)
    {asked : Site → Prop} (consistent : plan.setting.Consistent asked)
    (asks : ∀ stop, .ok stop ∈ plan.stops → plan.setting.AsksWithin asked stop) :
    (validator.validate heap root requested).Shows plan.run := by
  obtain ⟨metadata, groups, -, -, -, rfl⟩ := Validator.plan_eq_ok planned
  rw [Validator.validate_eq_over]
  exact validateOver_shows planned _ consistent nowhere_follows rfl asks

/-- Without a plan a validation fails, however many levels it has; it has found and done nothing. -/
theorem validateOver_of_unplanned {error : ValidationError}
    (unplanned : validator.plan heap root requested = .error error) (levels : Nat)
    (bottom : Value → MetaBean → Run Unit) :
    (validator.validateOver levels bottom heap root requested).failure = some error
      ∧ (validator.validateOver levels bottom heap root requested).heard = []
      ∧ (validator.validateOver levels bottom heap root requested).journal = [] := by
  obtain ⟨cache, -, applied⟩ := validateOver_eq validator levels bottom heap root requested
  rw [applied, unplanned]
  exact ⟨rfl, rfl, rfl⟩

theorem validate_of_unplanned {error : ValidationError}
    (unplanned : validator.plan heap root requested = .error error) :
    (validator.validate heap root requested).failure = some error
      ∧ (validator.validate heap root requested).heard = []
      ∧ (validator.validate heap root requested).journal = [] := by
  rw [Validator.validate_eq_over]
  exact validateOver_of_unplanned unplanned _ _

theorem planned_of_success (succeeded : (validator.validate heap root requested).failure = none) :
    ∃ plan, validator.plan heap root requested = .ok plan := by
  cases planned : validator.plan heap root requested with
  | ok plan => exact ⟨plan, rfl⟩
  | error error =>
    rw [(validate_of_unplanned planned).1] at succeeded
    cases succeeded

theorem environment_of_planned (planned : validator.plan heap root requested = .ok plan) :
    plan.setting.environment = validator.environment heap := by
  obtain ⟨metadata, groups, -, -, -, rfl⟩ := Validator.plan_eq_ok planned
  rfl

theorem groups?_of_planned (planned : validator.plan heap root requested = .ok plan) :
    validator.groups? requested = .ok plan.groups := by
  obtain ⟨metadata, groups, -, -, resolved, rfl⟩ := Validator.plan_eq_ok planned
  exact resolved

theorem groups?_of_success (succeeded : (validator.validate heap root requested).failure = none) :
    ∃ groups, validator.groups? requested = .ok groups := by
  obtain ⟨plan, planned⟩ := planned_of_success succeeded
  exact ⟨plan.groups, groups?_of_planned planned⟩

/-! ### Plans on beans -/

theorem rootMetadata?_eq_some {metadata : MetaBean}
    (known : validator.rootMetadata? heap root = .ok (some metadata)) :
    Engine.elements? (validator.environment heap) root = none
      ∧ validator.cache.configuration.build root.runtimeType = .ok metadata := by
  unfold Validator.rootMetadata? at known
  cases whole : Engine.elements? (validator.environment heap) root with
  | some _ => simp [whole] at known
  | none =>
    cases built : validator.cache.configuration.build root.runtimeType with
    | error error => simp [whole, built] at known
    | ok metadata => simpa [whole, built] using known

theorem rootMetadata?_eq_none (known : validator.rootMetadata? heap root = .ok none) :
    (Engine.elements? (validator.environment heap) root).isSome := by
  unfold Validator.rootMetadata? at known
  cases whole : Engine.elements? (validator.environment heap) root with
  | some _ => rfl
  | none =>
    cases built : validator.cache.configuration.build root.runtimeType <;>
      simp [whole, built] at known

/-- The metadata of a stop is that of a type. -/
theorem stops_built (planned : validator.plan heap root requested = .ok plan) :
    ∀ stop, .ok stop ∈ plan.stops →
      ∃ type, validator.cache.configuration.build type = .ok stop.metadata := by
  obtain ⟨metadata, groups, -, known, -, rfl⟩ := Validator.plan_eq_ok planned
  refine Setting.itinerary_built fun own isOwn => ?_
  cases isOwn
  exact ⟨_, (rootMetadata?_eq_some known).2⟩

theorem stops_wellFormed (planned : validator.plan heap root requested = .ok plan) :
    ∀ stop, .ok stop ∈ plan.stops → stop.metadata.WellFormed := by
  intro stop member
  obtain ⟨type, built⟩ := stops_built planned stop member
  exact Configuration.build_wellFormed built

/-- **On a graph of beans a validation shows the run of its plan**, whatever the resolver. -/
theorem validate_shows_on_beans (off : validator.mapsLikeBeans = false)
    (planned : validator.plan heap root requested = .ok plan) :
    (validator.validate heap root requested).Shows plan.run := by
  have wellFormed := stops_wellFormed planned
  have maps : plan.setting.environment.mapsLikeBeans = false := by
    rw [environment_of_planned planned]
    exact off
  exact validate_shows planned (Setting.consistent_at_stops maps) fun stop member =>
    Setting.asksWithin_propertySites (wellFormed stop member) member

theorem metadata_eq_of_type (planned : validator.plan heap root requested = .ok plan)
    {stop other : Stop} (isStop : .ok stop ∈ plan.stops) (isOther : .ok other ∈ plan.stops)
    (types : stop.metadata.type = other.metadata.type) : stop.metadata = other.metadata := by
  obtain ⟨type, built⟩ := stops_built planned stop isStop
  obtain ⟨another, builtOther⟩ := stops_built planned other isOther
  rw [Configuration.build_type built, Configuration.build_type builtOther] at types
  rw [types, builtOther] at built
  exact (Except.ok.inj built).symm

theorem resolver_of_planned (allowing : validator.resolver = .default)
    (planned : validator.plan heap root requested = .ok plan) :
    plan.setting.environment.resolver = .default := by
  rw [environment_of_planned planned]
  exact allowing

/-- Where the resolver allows everything, a validation shows the run of its plan on every graph. -/
theorem validate_shows_by_default (allowing : validator.resolver = .default)
    (planned : validator.plan heap root requested = .ok plan) :
    (validator.validate heap root requested).Shows plan.run := by
  have resolver := resolver_of_planned allowing planned
  have consistent : plan.setting.Consistent fun _ => True := by
    intro first second _ _ kind question _
    simp only [Setting.answer, resolver, Resolver.default]
  exact validate_shows planned consistent fun _ _ => ⟨fun _ => trivial, fun _ _ _ => trivial⟩

end Planned

/-- A declaration of properties and of nothing else. -/
def BeanDeclaration.ofProperties (type : TypeKey) (properties : List PropertyDeclaration) :
    BeanDeclaration :=
  ⟨type, none, [], properties, none, false⟩

/-! ### Beans in a ring

A small graph to try theorems on: nodes with a name and links to nodes, two groups that both ask for
a name, and a sequence of the two. -/

namespace Ring

def node : TypeKey := ⟨"Node"⟩
def basic : TypeKey := ⟨"Basic"⟩
def extra : TypeKey := ⟨"Extra"⟩
def ordered : TypeKey := ⟨"Ordered"⟩

def types : TypeSystem :=
  (TypeSystem.builtin.registerAll
    [.ofInterface basic [], .ofInterface extra [], .ofInterface ordered [], .ofClass node []]).1

def present : ConstraintDefinition :=
  .ofValidators "Present" [.ofPredicate "present" .object (.test fun value => .ok !value.isNull)]

def presentIn (group : TypeKey) : Annotation :=
  .constraint { ConstraintDeclaration.plain "Present" with groups := [group] }

def nodeDeclaration : BeanDeclaration where
  type := node
  id := none
  annotations := []
  properties :=
    [⟨"name", .field, .mk .string [], [presentIn basic, presentIn extra], false⟩,
     ⟨"links", .field, .mk .list [.mk node []], [], true⟩]
  groupSequence := none
  ignoreAnnotations := false

def orderedDeclaration : BeanDeclaration := ⟨ordered, none, [], [], some [basic, extra], false⟩

def configuration : Configuration :=
  ⟨types, ⟨[present]⟩, [⟨[nodeDeclaration, orderedDeclaration]⟩], []⟩

def validator : Validator :=
  .ofConfiguration configuration .default (fun template _ _ => template) false

def first : BeanRef := ⟨"first", node⟩
def second : BeanRef := ⟨"second", node⟩

/-- Two nodes that link to each other, the first one also to itself. -/
def heap (nameOfFirst nameOfSecond : Value) : Heap where
  beans :=
    [⟨first, [("name", nameOfFirst), ("links", .list [.bean second, .null, .bean first])], [], true⟩,
     ⟨second, [("name", nameOfSecond), ("links", .list [.bean first])], [], true⟩]

end Ring

end GraphValidation
