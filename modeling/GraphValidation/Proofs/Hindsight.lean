/-
**Answers in hindsight.**

A call remembers the answers of the resolver under a key, and two requests may share one.  Where a
call has succeeded, all answers that it has used are known, one for each key; a resolver that gives
these answers from the beginning, to every request with the key, leads to the same call.

* `Resolver.ofKeys` — a resolver whose answers are a matter of the key.
* `Foretold` — a step that succeeds comes to the same with the answers that it will have used; with
  rules for sequencing.
* `validate_foretold` — so does a validation.
* `validate_in_hindsight` — **a validation that succeeds is that of a resolver of keys**.
-/
import GraphValidation.Proofs.Fence
import GraphValidation.Proofs.Histories

namespace GraphValidation

/-! ### Resolvers of keys -/

/-- The key under which the answer about a request is remembered. -/
def ReachabilityRequest.key (request : ReachabilityRequest) (question : Question) : AnswerKey :=
  ⟨request.bean.bean?.map (·.id), (request.pathToBean.push request.node).text, request.kind,
    question⟩

/-- A resolver whose answers are a matter of the key. -/
def Resolver.ofKeys (told : AnswerKey → Except String Bool) : Resolver where
  answer question request := told (request.key question)

/-- Below its parent a leaf is what it was, but for a placeholder that has no text. -/
theorem Path.text_push_removeLeaf (path : Path) :
    (path.removeLeaf.push path.leaf).text = path.text := by
  obtain ⟨leaf, above⟩ := path
  cases above with
  | nil => rfl
  | cons parent rest =>
    cases isRoot : Path.isRoot ⟨parent, rest⟩ with
    | false => simp only [removeLeaf, push, isRoot, Bool.false_eq_true, if_false]
    | true =>
      simp only [removeLeaf, push, isRoot, if_true]
      simp only [Path.isRoot, Bool.and_eq_true, List.isEmpty_iff] at isRoot
      obtain ⟨rfl, placeholder⟩ := isRoot
      show joinNodes true [leaf] = joinNodes true [parent, leaf]
      rw [joinNodes.eq_def true [parent, leaf]]
      simp only [placeholder, if_true]

/-- The key of a question at a site is known from what the resolver is told. -/
theorem Site.key_request (site : Site) (kind : ElementKind) (question : Question) :
    (site.request kind).key question = site.key kind question := by
  simp only [ReachabilityRequest.key, Site.request, Site.key, Path.text_push_removeLeaf]

/-- The environment with another resolver. -/
def Environment.asking (environment : Environment) (resolver : Resolver) : Environment :=
  { environment with resolver }

/-- What no step of a call changes, with another resolver. -/
def Setting.asking (setting : Setting) (resolver : Resolver) : Setting :=
  { setting with environment := setting.environment.asking resolver }

/-- The validator with another resolver. -/
def Validator.asking (validator : Validator) (resolver : Resolver) : Validator :=
  { validator with resolver }

theorem Setting.answer_ofKeys (setting : Setting) (told : AnswerKey → Except String Bool)
    (site : Site) (kind : ElementKind) (question : Question) :
    (setting.asking (.ofKeys told)).answer site kind question
      = (told (site.key kind question)).mapError (.resolver question site.bean.text) := by
  rw [Setting.answer_eq, ← Site.key_request]
  have asks : (setting.asking (.ofKeys told)).environment.resolver.answer question
      (site.request kind) = told ((site.request kind).key question) := rfl
  rw [asks]
  cases told ((site.request kind).key question) <;> rfl

/-! ### Evaluations ask nothing -/

section Evaluations

variable (environment : Environment) (resolver : Resolver)

mutual

/-- What a constraint finds on a value is no matter of the resolver. -/
theorem judge_asking (site : Site) (place : NodePlace) (value : Value) (node : ConstraintNode) :
    judge (environment.asking resolver) site place value node
      = judge environment site place value node := by
  cases node with
  | mk content composing =>
    simp only [judge, judgeAll_asking site place 0 value composing]
    rfl

theorem judgeAll_asking (site : Site) (place : NodePlace) (index : Nat) (value : Value)
    (nodes : List ConstraintNode) :
    judgeAll (environment.asking resolver) site place index value nodes
      = judgeAll environment site place index value nodes := by
  cases nodes with
  | nil => rfl
  | cons node rest =>
    simp only [judgeAll, judge_asking site _ value node,
      judgeAll_asking site place (index + 1) value rest]

end

theorem evaluate_asking (place : NodePlace) (value : Value) (node : ConstraintNode) :
    Engine.evaluate (environment.asking resolver) place value node
      = Engine.evaluate environment place value node := by
  funext context
  rw [Engine.evaluate_apply, Engine.evaluate_apply, judge_asking]

end Evaluations

/-! ### Steps whose answers are foretold -/

/-- All answers that a context remembers are told. -/
def Context.Told (told : AnswerKey → Except String Bool) (context : Context) : Prop :=
  ∀ key answer, context.answers.lookup key = some answer → told key = .ok answer

/-- A step that succeeds forgets no answer, and another one does the same if the answers that are
left are told. -/
def Foretold (told : AnswerKey → Except String Bool) {α : Type} (step other : Run α) : Prop :=
  ∀ context a later, step context = .ok a later →
    (∀ key answer, context.answers.lookup key = some answer →
        later.answers.lookup key = some answer)
      ∧ (later.Told told → other context = .ok a later)

namespace Foretold

variable {told : AnswerKey → Except String Bool} {α β : Type}

/-- A step that does nothing to the answers. -/
theorem of_kept {step : Run α}
    (kept : ∀ context a later, step context = .ok a later → later.answers = context.answers) :
    Foretold told step step := by
  intro context a later ok
  refine ⟨fun key answer known => ?_, fun _ => ok⟩
  rw [kept context a later ok]
  exact known

theorem pure (a : α) : Foretold told (Pure.pure a) (Pure.pure a) :=
  of_kept fun _ _ _ ok => by cases ok; rfl

theorem modify {change : Context → Context}
    (kept : ∀ context, (change context).answers = context.answers) :
    Foretold told (modify change : Run PUnit) (modify change : Run PUnit) :=
  of_kept fun context _ _ ok => by cases ok; exact kept context

/-- What is left in the end holds what was left in between, so both steps are foretold. -/
theorem bind {step other : Run α} {next following : α → Run β} (first : Foretold told step other)
    (second : ∀ a, Foretold told (next a) (following a)) :
    Foretold told (step >>= next) (other >>= following) := by
  intro context b later ok
  cases ran : step context with
  | error error middle =>
    rw [Run.bind_of_error ran] at ok
    cases ok
  | ok a middle =>
    rw [Run.bind_of_ok ran] at ok
    obtain ⟨recalls, replays⟩ := first context a middle ran
    obtain ⟨recallsLater, replaysLater⟩ := second a middle b later ok
    refine ⟨fun key answer known => recallsLater key answer (recalls key answer known),
      fun isTold => ?_⟩
    have between : middle.Told told := fun key answer known =>
      isTold key answer (recallsLater key answer known)
    exact (Run.bind_of_ok (replays between)).trans (replaysLater isTold)

/-- A step that looks at the context first. -/
theorem get {next following : Context → Run α}
    (alike : ∀ context, Foretold told (next context) (following context)) :
    Foretold told (MonadState.get >>= next) (MonadState.get >>= following) :=
  bind (of_kept fun _ _ _ ok => by cases ok; rfl) alike

/-- Two steps that go the same way. -/
theorem branch {step other next following : Run α} {condition : Prop} [Decidable condition]
    (first : Foretold told step other) (second : Foretold told next following) :
    Foretold told (if condition then step else next) (if condition then other else following) := by
  split
  · exact first
  · exact second

theorem restoring {step other : Run α} {restore : Context → Context}
    (inner : Foretold told step other)
    (kept : ∀ context, (restore context).answers = context.answers) :
    Foretold told (Run.restoring step restore) (Run.restoring other restore) := by
  intro context a later ok
  rw [Run.restoring_apply] at ok
  cases ran : step context with
  | error error middle =>
    rw [ran] at ok
    cases ok
  | ok b middle =>
    rw [ran] at ok
    cases ok
    obtain ⟨recalls, replays⟩ := inner context a middle ran
    unfold Context.Told
    rw [kept middle]
    refine ⟨recalls, fun isTold => ?_⟩
    rw [Run.restoring_apply, replays isTold]

theorem forEach {step other : α → Run Unit} {items : List α}
    (steps : ∀ item ∈ items, Foretold told (step item) (other item)) :
    Foretold told (Run.forEach step items) (Run.forEach other items) := by
  induction items with
  | nil => exact pure ()
  | cons item rest ih =>
    exact bind (steps item List.mem_cons_self)
      fun _ => ih fun other member => steps other (List.mem_cons_of_mem _ member)

/-! ### The steps that the engine is made of -/

variable {step other : Run Unit}

theorem onProperty (name : String) (inner : Foretold told step other) :
    Foretold told (Run.onProperty name step) (Run.onProperty name other) :=
  restoring (bind (modify fun _ => rfl) fun _ => inner) fun _ => rfl

theorem onBean (bean : Value) (metadata : MetaBean) (inner : Foretold told step other) :
    Foretold told (Run.onBean bean metadata step) (Run.onBean bean metadata other) :=
  get fun _ => restoring (bind (modify fun _ => rfl) fun _ => inner) fun _ => rfl

theorem markVisited (ref : BeanRef) :
    Foretold told (Run.markVisited ref) (Run.markVisited ref) :=
  of_kept fun context a later ok => by
    rw [Run.markVisited_apply] at ok
    split at ok <;> cases ok <;> rfl

theorem markProcessed (place : NodePlace) :
    Foretold told (Run.markProcessed place) (Run.markProcessed place) :=
  of_kept fun context a later ok => by
    rw [Run.markProcessed_apply] at ok
    split at ok
    · cases ok
      rfl
    · split at ok <;> cases ok <;> rfl

theorem metadataOf (type : TypeKey) : Foretold told (Run.metadataOf type) (Run.metadataOf type) :=
  of_kept fun context a later ok => by
    cases built : context.cache.configuration.build type with
    | ok metadata =>
      rw [metadataOf_of_ok built] at ok
      cases ok
      rfl
    | error error =>
      rw [metadataOf_of_error built] at ok
      cases ok

theorem reports (inner : Foretold told step other) :
    Foretold told (Engine.reports step) (Engine.reports other) :=
  get fun _ => bind inner fun _ => get fun _ => pure _

theorem runSequence {prepare : TypeKey → Run Unit}
    (prepares : ∀ group, Foretold told (prepare group) (prepare group))
    (inner : Foretold told step other) (groups : List TypeKey) :
    Foretold told (Engine.runSequence prepare step groups)
      (Engine.runSequence prepare other groups) := by
  induction groups with
  | nil => exact pure ()
  | cons group rest ih =>
    refine bind (prepares group) fun _ => bind (reports inner) fun reported => ?_
    cases reported with
    | true => exact pure ()
    | false => exact ih

theorem withDefaultSequence (metadata : MetaBean) (inner : Foretold told step other) :
    Foretold told (Engine.withDefaultSequence metadata step)
      (Engine.withDefaultSequence metadata other) := by
  unfold Engine.withDefaultSequence
  cases metadata.groupSequence with
  | none => exact inner
  | some sequence =>
    have switches : ∀ group, Foretold told (Engine.setGroup group) (Engine.setGroup group) :=
      fun _ => modify fun _ => rfl
    exact get fun context =>
      branch (restoring (runSequence switches inner sequence) fun _ => rfl) inner

theorem forEachGroup (groups : Groups) (inner : Foretold told step other) :
    Foretold told (Engine.forEachGroup groups step) (Engine.forEachGroup groups other) := by
  have starts : ∀ group, Foretold told (Engine.startPass group) (Engine.startPass group) :=
    fun _ => modify fun _ => rfl
  exact restoring (bind (forEach fun group _ => bind (starts group) fun _ => inner)
    fun _ => forEach fun sequence _ => runSequence starts inner sequence) fun _ => rfl

end Foretold

/-! ### The engine with foretold answers -/

section Engines

variable {told : AnswerKey → Except String Bool} (setting : Setting)

namespace Foretold

/-- **A question is answered as before, or as is told.** -/
theorem ask (question : Question) (kind : ElementKind) :
    Foretold told (Run.ask setting.environment question kind)
      (Run.ask (setting.asking (.ofKeys told)).environment question kind) := by
  intro context answer later ok
  cases known : context.answers.lookup (context.site.key kind question) with
  | some given =>
    rw [ask_of_known known] at ok
    cases ok
    exact ⟨fun _ _ found => found, fun _ => ask_of_known known⟩
  | none =>
    rw [ask_of_new setting known] at ok
    cases answered : setting.answer context.site kind question with
    | error error => simp [answered] at ok
    | ok given =>
      simp only [answered] at ok
      cases ok
      refine ⟨fun key earlier found => ?_, fun isTold => ?_⟩
      · have other : (key == context.site.key kind question) = false := by
          refine beq_eq_false_iff_ne.mpr fun same => ?_
          rw [same, known] at found
          cases found
        simpa only [Context.answering, List.lookup_cons, other] using found
      · have given := isTold (context.site.key kind question) answer
          (by simp only [Context.answering, List.lookup_cons, beq_self_eq_true])
        have likewise := ask_of_new (setting.asking (.ofKeys told)) known
        rw [Setting.answer_ofKeys, given] at likewise
        exact likewise

theorem isTraversable (access : Access) :
    Foretold told (Run.isTraversable setting.environment access)
      (Run.isTraversable (setting.asking (.ofKeys told)).environment access) := by
  refine bind (ask setting .reachable access.kind) fun reachable => ?_
  cases reachable with
  | true => exact ask setting .cascadable access.kind
  | false => exact pure false

/-- Reading asks nothing. -/
theorem propertyValue (access : Access) :
    Foretold told (Run.propertyValue setting.environment access)
      (Run.propertyValue (setting.asking (.ofKeys told)).environment access) := by
  refine of_kept fun context value later ok => ?_
  obtain ⟨events, result, last, -, -, reading⟩ := propertyValue_recalling setting access context
  have ran := (reading context.memory).symm.trans ok
  cases result with
  | ok read => cases ran; rfl
  | error error => cases ran

theorem evaluate (place : NodePlace) (value : Value) (node : ConstraintNode) :
    Foretold told (Engine.evaluate setting.environment place value node)
      (Engine.evaluate (setting.asking (.ofKeys told)).environment place value node) := by
  have same := evaluate_asking setting.environment (.ofKeys told) place value node
  rw [show (setting.asking (.ofKeys told)).environment = setting.environment.asking (.ofKeys told)
    from rfl, same]
  refine of_kept fun context _ later ok => ?_
  rw [Engine.evaluate_apply] at ok
  unfold Context.concluding at ok
  split at ok <;> cases ok
  rfl

/-! ### Constraints -/

theorem validateConstraint (place : NodePlace) (node : ConstraintNode) :
    Foretold told (Engine.validateConstraint setting.environment place node)
      (Engine.validateConstraint (setting.asking (.ofKeys told)).environment place node) := by
  refine get fun context => branch (pure ()) (bind (markProcessed place) fun isNew => ?_)
  cases isNew with
  | false => exact pure ()
  | true =>
    cases node.content.access with
    | none => exact evaluate setting place context.bean node
    | some access =>
      refine bind (isTraversable setting access) fun allowed => ?_
      cases allowed with
      | false => exact pure ()
      | true =>
        exact bind (propertyValue setting access) fun value => evaluate setting place value node

theorem validateConstraints (type : TypeKey) (property : Option String) (index : Nat)
    (nodes : List ConstraintNode) :
    Foretold told (Engine.validateConstraints setting.environment type property index nodes)
      (Engine.validateConstraints (setting.asking (.ofKeys told)).environment type property index
        nodes) := by
  induction nodes generalizing index with
  | nil => exact pure ()
  | cons node rest ih => exact bind (validateConstraint setting _ node) fun _ => ih (index + 1)

theorem validateOwn (metadata : MetaBean) :
    Foretold told (Engine.validateOwn setting.environment metadata)
      (Engine.validateOwn (setting.asking (.ofKeys told)).environment metadata) := by
  refine bind (forEach fun property _ => branch (pure ()) ?_)
    fun _ => validateConstraints setting _ _ _ _
  exact onProperty property.name (validateConstraints setting _ _ _ _)

/-! ### From bean to bean -/

section Cascades

variable {visit other : Value → MetaBean → Run Unit}
  (visits : ∀ bean metadata, Foretold told (visit bean metadata) (other bean metadata))

include visits

theorem validateElement (target : CascadeTarget) (element : Value) :
    Foretold told (Engine.validateElement setting.environment visit target element)
      (Engine.validateElement (setting.asking (.ofKeys told)).environment other target element) :=
  branch (bind (metadataOf _) fun metadata => visits element metadata) (pure ())

theorem validateElements (target : CascadeTarget) (elements : List (Path.Mark × Value)) :
    Foretold told (Engine.validateElements setting.environment visit target elements)
      (Engine.validateElements (setting.asking (.ofKeys told)).environment other target
        elements) := by
  induction elements with
  | nil => exact pure ()
  | cons head rest ih =>
    obtain ⟨mark, element⟩ := head
    have marking : Foretold told (Engine.markLeaf mark) (Engine.markLeaf mark) :=
      modify fun _ => rfl
    unfold Engine.validateElements
    refine branch (bind (pure ()) fun _ => ih) (bind marking fun _ => ?_)
    exact bind (validateElement setting visits target element) fun _ => ih

theorem validateValue (target : CascadeTarget) (value : Value) :
    Foretold told (Engine.validateValue setting.environment visit target value)
      (Engine.validateValue (setting.asking (.ofKeys told)).environment other target value) := by
  have marking : Foretold told (Engine.markLeaf .plain) (Engine.markLeaf .plain) :=
    modify fun _ => rfl
  have elements : Engine.elements? (setting.asking (.ofKeys told)).environment value
      = Engine.elements? setting.environment value := rfl
  unfold Engine.validateValue
  rw [elements]
  refine branch (pure ()) ?_
  cases Engine.elements? setting.environment value with
  | none => exact validateElement setting visits target value
  | some elements =>
    exact bind (validateElements setting visits target elements) fun _ => marking

theorem validateCascades (metadata : MetaBean) :
    Foretold told (Engine.validateCascades setting.environment visit metadata)
      (Engine.validateCascades (setting.asking (.ofKeys told)).environment other metadata) := by
  refine forEach fun property _ => ?_
  cases property.cascade with
  | none => exact pure ()
  | some target =>
    refine onProperty property.name (forEach fun access _ => ?_)
    refine bind (isTraversable setting access) fun allowed => ?_
    cases allowed with
    | false => exact pure ()
    | true =>
      exact bind (propertyValue setting access) fun value =>
        validateValue setting visits target value

end Cascades

/-- A bean and what is reached from it are validated with foretold answers, by induction on the
levels. -/
theorem validateBean (levels : Nat) (bean : Value) (metadata : MetaBean) :
    Foretold told (Engine.validateBean setting.environment levels bean metadata)
      (Engine.validateBean (setting.asking (.ofKeys told)).environment levels bean metadata) := by
  induction levels generalizing bean metadata with
  | zero => exact pure ()
  | succ levels ih =>
    have recording : ∀ event, Foretold told (Run.record event) (Run.record event) :=
      fun _ => modify fun _ => rfl
    have stays := bind (withDefaultSequence metadata (validateOwn setting metadata))
      fun _ => validateCascades setting ih metadata
    have enters := get fun context : Context =>
      bind (recording (.entered bean metadata context.path)) fun _ => onBean bean metadata stays
    unfold Engine.validateBean
    split
    · exact bind (markVisited _) fun isNew => branch (pure ()) enters
    · exact bind (pure true) fun isNew => branch (pure ()) enters

theorem validateGraph (root : Value) (metadata : Option MetaBean) (groups : Groups) :
    Foretold told (Engine.validateGraph setting.environment root metadata groups)
      (Engine.validateGraph (setting.asking (.ofKeys told)).environment root metadata groups) := by
  refine forEachGroup groups ?_
  cases metadata with
  | some metadata => exact validateBean setting _ root metadata
  | none => exact validateValue setting (validateBean setting _) .dynamic root

end Foretold

end Engines

/-! ### Validations with foretold answers -/

/-- What remains when a validation is known by some answers: a resolver of keys that gives them leads
to the same validation, and the resolver itself has given them where it was asked. -/
structure Validator.Recounts (validator : Validator) (heap : Heap) (root : Value)
    (requested : List TypeKey) (setting : Setting) (answers : List (AnswerKey × Bool)) : Prop where
  replays : ∀ told : AnswerKey → Except String Bool,
    (∀ key answer, answers.lookup key = some answer → told key = .ok answer) →
      ((validator.asking (.ofKeys told)).validate heap root requested).account
        = (validator.validate heap root requested).account
  given : ∀ asked, setting.Encloses asked (validator.validate heap root requested).journal →
    ∀ (site : Site) kind question answer, answers.lookup (site.key kind question) = some answer →
      ∃ other, asked other ∧ other.key kind question = site.key kind question
        ∧ setting.answer other kind question = .ok answer

section Calls

variable {validator : Validator} {heap : Heap} {root : Value} {requested : List TypeKey}
  {plan : Plan}

/-- With any resolver a validation begins with the same plan. -/
theorem validate_asking (planned : validator.plan heap root requested = .ok plan) :
    ∃ cache : MetadataCache, ∀ resolver,
      (validator.asking resolver).validate heap root requested
        = (validator.asking resolver).outcomeAt
          (Engine.validateGraph (plan.setting.asking resolver).environment root plan.metadata
            plan.groups (.ready cache (Validator.rootTypeOf root plan.metadata))) := by
  obtain ⟨cache, alike, applied⟩ := plan_apply validator heap root requested
  refine ⟨cache, fun resolver => ?_⟩
  have ran := applied fun metadata groups =>
    Engine.validateGraph ((validator.asking resolver).environment heap) root metadata groups
  obtain ⟨metadata, groups, -, -, -, made⟩ := Validator.plan_eq_ok planned
  rw [planned] at ran
  subst made
  rw [Validator.validate, call_eq_outcomeAt]
  exact congrArg (validator.asking resolver).outcomeAt ran

/-- **A validation that succeeds is that of a resolver of keys.** -/
theorem validate_in_hindsight (planned : validator.plan heap root requested = .ok plan)
    (succeeded : (validator.validate heap root requested).failure = none) :
    ∃ answers, validator.Recounts heap root requested plan.setting answers := by
  obtain ⟨cache, validated⟩ := validate_asking planned
  obtain ⟨metadata, groups, -, -, -, made⟩ := Validator.plan_eq_ok planned
  let start := Context.ready cache (Validator.rootTypeOf root plan.metadata)
  let engine := Engine.validateGraph plan.setting.environment root plan.metadata plan.groups
  have own : validator.validate heap root requested = validator.outcomeAt (engine start) := by
    subst made
    exact validated validator.resolver
  cases ran : engine start with
  | error error later =>
    rw [own, ran] at succeeded
    cases succeeded
  | ok _ later =>
    rw [ran] at own
    refine ⟨later.answers, fun told isTold => ?_, ?_⟩
    · have foretold := (Foretold.validateGraph plan.setting root plan.metadata plan.groups :
        Foretold told engine _) start () later ran
      rw [validated, foretold.2 isTold, own]
      rfl
    · intro asked encloses site kind question answer found
      have lawful := Sides.fenced_lawful plan.setting asked start.journal
      have keeps : (Sides.fenced plan.setting asked start.journal).Keeps start.site engine engine := by
        have ofRoot : start.site.rootType = plan.setting.rootType := by
          subst made
          rfl
        have graph := lawful.validateGraphBy root plan.metadata plan.groups ofRoot rfl
        have same : engine = Engine.validateGraphBy plan.setting.environment
            (Run.fetch plan.setting.environment) root plan.metadata plan.groups :=
          Engine.validateGraph_eq_by root plan.metadata plan.groups
        rw [same]
        exact graph
      have left : engine.after start = later := Run.after_of_ok ran
      obtain ⟨_, -, recent, kept⟩ := keeps.after rfl
        ⟨rfl, [], Memory.Kept.blank start.memory rfl⟩ fun bean metadata path entered => by
          rw [left] at entered
          refine encloses bean metadata path ?_
          rw [own]
          exact List.mem_reverse.mpr entered
      rw [left] at kept
      obtain ⟨other, isAsked, keys, -, answered⟩ := kept.answers site kind question answer found
      exact ⟨other, isAsked, keys, answered⟩

end Calls

end GraphValidation
