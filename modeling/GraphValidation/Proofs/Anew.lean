/-
**Asking the resolver anew.**

A call remembers the answers of the resolver under the identity of the bean and the text of the
path.  An engine that asks anew each time does the same, as long as no two requests with different
answers share a key.  Where maps are not validated like beans, no two requests share one.

* `Run.fetchAnew`, `Validator.performAnew` — the engine that asks anew, and its calls.
* `Memory.Sound` — what is remembered is what the resolver answers; kept by asking.
* `perform_matches_anew` — **a call and the one that asks anew differ in their questions at most**.
* `performAnew_differs` — maps that are validated like beans have no identity, and the text of a
  path does not tell a key with a dot from two keys.
-/
import GraphValidation.Proofs.Histories
import GraphValidation.Proofs.Whereabouts

namespace GraphValidation

/-! ### An engine that remembers no answers -/

namespace Run

/-- The answer of the resolver, whatever it has answered before. -/
def askAnew (environment : Environment) (question : Question) (kind : ElementKind) : Run Bool := do
  let context ← get
  let request : ReachabilityRequest :=
    ⟨context.bean, context.path.leaf, context.rootType, context.path.removeLeaf, kind⟩
  record (.asked question request)
  ofExcept (.resolver question context.bean.text) (environment.resolver.answer question request)

/-- Fetches values as the engine does, but asks anew each time. -/
def fetchAnew (environment : Environment) : Fetch := fetchAsking environment (askAnew environment)

end Run

/-- A call whose engine asks the resolver anew each time. -/
def Validator.performAnew (validator : Validator) (heap : Heap) (validation : Validation) :
    Outcome :=
  validator.performBy Run.fetchAnew heap validation

theorem askAnew_recalling (setting : Setting) (question : Question) (kind : ElementKind)
    (context : Context) (memory : Memory) :
    Run.askAnew setting.environment question kind (context.recalling memory)
      = context.concludes (setting.answer context.site kind question,
        memory.noting [.asked question (context.site.request kind)]) := by
  have told : setting.environment.resolver.answer question
        ⟨context.bean, context.path.leaf, context.rootType, context.path.removeLeaf, kind⟩
      = setting.environment.resolver.answer question (context.site.request kind) := rfl
  rw [Setting.answer_eq]
  simp only [Run.askAnew, Run.bind_apply, Run.get_apply, Run.record_apply, Context.recalling, told]
  cases setting.environment.resolver.answer question (context.site.request kind) <;> rfl

/-! ### Memories that differ in questions -/

/-- Whether the resolver was asked. -/
def Event.isQuestion : Event → Bool
  | asked _ _ => true
  | _ => false

/-- What was done besides asking. -/
def answered (journal : List Event) : List Event := journal.filter fun event => !event.isQuestion

/-- The second memory holds no answers; the first one holds those of the resolver at the `asked`
sites, and otherwise they differ in the questions that were asked at most. -/
structure Memory.Sound (setting : Setting) (asked : Site → Prop) (first second : Memory) :
    Prop where
  cache : first.cache = second.cache
  journal : answered first.journal = answered second.journal
  answers : ∀ site, asked site → ∀ kind question answer,
    first.answers.lookup (site.key kind question) = some answer →
      setting.answer site kind question = .ok answer

/-- The engine, and the one that asks anew. -/
def Sides.anew (setting : Setting) (asked : Site → Prop) : Sides where
  setting
  asked
  first := Run.fetch setting.environment
  second := Run.fetchAnew setting.environment
  related := Memory.Sound setting asked

section Sounds

variable {setting : Setting} {asked : Site → Prop}

namespace Memory.Sound

variable {first second : Memory} (sound : Memory.Sound setting asked first second)

include sound

theorem noting (events : List Event) :
    Memory.Sound setting asked (first.noting events) (second.noting events) :=
  { sound with
    journal := by
      simp only [answered, Memory.noting, List.filter_append]
      exact congrArg _ sound.journal }

/-- A question that the second engine alone asks. -/
theorem noting_second (question : Question) (request : ReachabilityRequest) :
    Memory.Sound setting asked first (second.noting [.asked question request]) :=
  { sound with journal := sound.journal }

theorem answering (consistent : setting.Consistent asked) {site : Site} (isAsked : asked site)
    {kind : ElementKind} {question : Question} {answer : Bool}
    (given : setting.answer site kind question = .ok answer) :
    Memory.Sound setting asked (first.answering question site kind answer)
      (second.noting [.asked question (site.request kind)]) :=
  { sound.noting [.asked question (site.request kind)] with
    answers := by
      intro other otherAsked kind' question' answer' found
      simp only [Memory.answering, List.lookup_cons] at found
      cases same : other.key kind' question' == site.key kind question with
      | false =>
        rw [same] at found
        exact sound.answers other otherAsked kind' question' answer' found
      | true =>
        rw [same] at found
        cases found
        have keys : other.key kind' question' = site.key kind question := by simpa using same
        have kinds : kind' = kind := congrArg AnswerKey.kind keys
        have questions : question' = question := congrArg AnswerKey.question keys
        subst kinds questions
        rw [consistent other site otherAsked isAsked _ _ keys, given] }

/-- **What is remembered is what would be answered anew.** -/
theorem ask (consistent : setting.Consistent asked) {site : Site} (isAsked : asked site)
    (question : Question) (kind : ElementKind) :
    (first.ask setting question kind site).1 = setting.answer site kind question
      ∧ Memory.Sound setting asked (first.ask setting question kind site).2
        (second.noting [.asked question (site.request kind)]) := by
  unfold Memory.ask
  cases known : first.answers.lookup (site.key kind question) with
  | some answer =>
    exact ⟨(sound.answers site isAsked kind question answer known).symm,
      sound.noting_second question (site.request kind)⟩
  | none =>
    cases given : setting.answer site kind question with
    | ok answer => exact ⟨rfl, sound.answering consistent isAsked given⟩
    | error error => exact ⟨rfl, sound.noting _⟩

end Memory.Sound

variable (consistent : setting.Consistent asked)

include consistent

theorem Sides.anew_ask (site : Site) (isAsked : asked site) (question : Question)
    (kind : ElementKind) :
    (Sides.anew setting asked).Keeps site (Run.ask setting.environment question kind)
      (Run.askAnew setting.environment question kind) := by
  refine ⟨ask_goes setting question kind, ?_⟩
  rintro context first second rfl sound -
  obtain ⟨same, after⟩ := sound.ask consistent isAsked question kind
  rw [ask_recalling, askAnew_recalling, ← same]
  cases asking : first.ask setting question kind context.site with
  | mk result later =>
    rw [asking] at after
    cases result with
    | ok answer => exact .ok answer context after
    | error error => exact .error error context after

theorem Sides.anew_lawful : (Sides.anew setting asked).Lawful where
  builds sound type := by rw [sound.cache]
  consults sound type :=
    { sound with cache := congrArg (fun cache => (MetadataCache.get cache type).2) sound.cache }
  evaluates sound _ _ _ _ := sound.noting _
  enters sound _ _ _ := sound.noting _
  goes := fetch_goes setting
  fetches access site isAsked :=
    Sides.fetchAsking (fun question => Sides.anew_ask consistent site isAsked question access.kind)
      fun _ _ sound _ _ _ => sound.noting _

end Sounds

/-! ### Calls -/

/-- Outcomes that differ in the questions that were asked at most. -/
structure Outcome.Matches (outcome other : Outcome) : Prop where
  failure : outcome.failure = other.failure
  heard : outcome.heard = other.heard
  journal : answered outcome.journal = answered other.journal
  validator : outcome.validator = other.validator

/-- Questions with one key about properties at the stops of a call have one answer. -/
def Validator.Separates (validator : Validator) (heap : Heap) (validation : Validation) : Prop :=
  ∀ root metadata groups, validator.task? heap validation = .ok (.graph root metadata groups) →
    (validator.setting heap root metadata).Consistent
      ((validator.setting heap root metadata).PropertySites
        ((validator.setting heap root metadata).itinerary root metadata))

section Calls

variable {validator : Validator} {heap : Heap}

/-- Runs that stay abreast come to matching outcomes. -/
theorem Sides.Leads.matches {setting : Setting} {asked : Site → Prop} {pre post : Site → Prop}
    {step other : Run Unit} {context : Context}
    (leads : (Sides.anew setting asked).Leads pre post step other) (here : pre context.site)
    (unasked : context.answers = [])
    (encloses : setting.Encloses asked (step.after context).journal) :
    (validator.outcomeAt (step context)).Matches (validator.outcomeAt (other context)) := by
  have blank : Memory.Sound setting asked context.memory context.memory :=
    ⟨rfl, rfl, fun site _ kind question answer found => by
      rw [show context.memory.answers = [] from unasked] at found
      cases found⟩
  have abreast := leads.abreast context context.memory context.memory here blank encloses
  rw [Context.recalling_memory] at abreast
  obtain ⟨failure, heard, memory, another, sound, first, second⟩ :=
    abreast.outcomes validator validator
  rw [first, second]
  refine ⟨rfl, rfl, ?_, congrArg (fun cache => { validator with cache }) sound.cache⟩
  have turned : ∀ journal, answered (List.reverse journal) = (answered journal).reverse :=
    fun _ => List.filter_reverse
  rw [turned, turned, sound.journal]

variable {validation : Validation} {cache : MetadataCache}

theorem graph_matches {root : Value} {metadata : Option MetaBean} {groups : Groups}
    (found : validator.task? heap validation = .ok (.graph root metadata groups))
    (alike : cache.configuration = validator.cache.configuration)
    (consistent : (validator.setting heap root metadata).Consistent
      ((validator.setting heap root metadata).PropertySites
        ((validator.setting heap root metadata).itinerary root metadata))) :
    (validator.outcomeAt ((Task.graph root metadata groups).program (validator.environment heap)
        (Run.fetch (validator.environment heap))
        (.ready cache (Validator.rootTypeOf root metadata)))).Matches
      (validator.outcomeAt ((Task.graph root metadata groups).program (validator.environment heap)
        (Run.fetchAnew (validator.environment heap))
        (.ready cache (Validator.rootTypeOf root metadata)))) :=
  ((Sides.anew_lawful consistent).validateGraphBy root metadata groups rfl rfl).matches rfl rfl
    (graph_encloses found alike consistent)

/-- All questions about a value are asked at one site. -/
theorem value_matches (metadata : MetaBean) (name : String) (given : Value) (groups : Groups) :
    (validator.outcomeAt ((Task.value metadata name given groups).program
        (validator.environment heap) (Run.fetch (validator.environment heap))
        (.ready cache metadata.type))).Matches
      (validator.outcomeAt ((Task.value metadata name given groups).program
        (validator.environment heap) (Run.fetchAnew (validator.environment heap))
        (.ready cache metadata.type))) := by
  let task := Task.value metadata name given groups
  let setting := validator.settingFor heap task
  have lawful := Sides.anew_lawful ((Site.apart_under task.home).consistent setting)
  exact (lawful.validatePropertyValueBy metadata name given groups fun name => ⟨name, rfl⟩).matches
    rfl rfl (value_encloses _ metadata name given groups fun _ _ _ => List.not_mem_nil)

/-- Both engines follow a path alike; then all questions are asked at one site. -/
theorem property_matches (root : Value) (metadata : MetaBean) (path : Path) (groups : Groups) :
    (validator.outcomeAt ((Task.property root metadata path groups).program
        (validator.environment heap) (Run.fetch (validator.environment heap))
        (.ready cache metadata.type))).Matches
      (validator.outcomeAt ((Task.property root metadata path groups).program
        (validator.environment heap) (Run.fetchAnew (validator.environment heap))
        (.ready cache metadata.type))) := by
  let task := Task.property root metadata path groups
  let setting := validator.settingFor heap task
  let start := Context.ready cache task.rootType
  let navigate := Engine.navigate setting.environment root metadata .root path.above.reverse
  let arriveBy := fun fetch => Engine.validateArrivedBy setting.environment fetch path.leaf groups
  show (validator.outcomeAt ((navigate >>= arriveBy (Run.fetch setting.environment)) start)).Matches
    (validator.outcomeAt ((navigate >>= arriveBy (Run.fetchAnew setting.environment)) start))
  obtain ⟨reads, areReads, left⟩ :=
    navigate_of_ready setting root metadata .root path.above.reverse cache task.rootType
  rcases left with ⟨error, later, followed, -⟩ | ⟨arrived, later, followed, here, unasked, journal⟩
  · rw [Run.bind_of_error followed, Run.bind_of_error followed]
    exact ⟨rfl, rfl, rfl, rfl⟩
  · have unentered : later.memory.Unentered := .of_reads (by
      rw [show later.memory.journal = reads from journal]
      exact areReads)
    have lawful := Sides.anew_lawful
      ((Site.apart_under (task.home.arrival arrived)).consistent setting)
    rw [Run.bind_of_ok followed, Run.bind_of_ok followed]
    exact (lawful.validateArrivedBy path.leaf groups arrived
      (Site.under_arrival task.home arrived)).matches here unasked
        (arrived_encloses _ path.leaf groups arrived unentered)

/-- **A call and the one that asks anew differ in their questions at most**, if maps are not
validated like beans, or if questions with one key have one answer. -/
theorem perform_matches_anew (validator : Validator) (heap : Heap) (validation : Validation)
    (separates : validator.mapsLikeBeans = true → validator.Separates heap validation) :
    (validator.perform heap validation).Matches (validator.performAnew heap validation) := by
  rw [Validator.perform_eq_by, Validator.performAnew]
  obtain ⟨cache, alike, performed⟩ := performBy_eq validator heap validation
  rw [performed, performed]
  cases found : validator.task? heap validation with
  | error error => exact ⟨rfl, rfl, rfl, rfl⟩
  | ok task =>
    cases task with
    | graph root metadata groups =>
      refine graph_matches found alike ?_
      cases maps : validator.mapsLikeBeans with
      | true => exact separates maps root metadata groups found
      | false => exact Setting.consistent_at_stops maps
    | property root metadata path groups => exact property_matches root metadata path groups
    | value metadata name given groups => exact value_matches metadata name given groups

end Calls

/-! ### Maps in maps -/

namespace Pocket

/-- Maps are validated like beans with three members, of which one is called like the path from
another one to the third. -/
def configuration : Configuration where
  types := .builtin
  catalog := ⟨[Ring.present]⟩
  annotations := [⟨[.ofProperties .map
    [⟨"a.b", .field, .object, [Ring.presentIn .defaultGroup], false⟩,
     ⟨"a", .field, .object, [], true⟩,
     ⟨"b", .field, .object, [Ring.presentIn .defaultGroup], false⟩]]⟩]
  mappings := []

def validator (resolver : Resolver) : Validator :=
  .ofConfiguration configuration resolver (fun template _ _ => template) true

def inner : Value := .map [(.string "a.b", .int 1), (.string "a", .null), (.string "b", .null)]
def outer : Value := .map [(.string "a.b", .int 1), (.string "a", inner), (.string "b", .int 1)]

/-- Nobody may read the member `b` of the inner map. -/
def closed : Resolver := .ofRules [⟨none, some "b", some "a", none, .ok false⟩]

/-- Nobody may read what is no field. -/
def fieldsOnly : Resolver := .ofRules [⟨none, none, none, some "method", .ok false⟩]

end Pocket

/-- Answers that depend on nothing but the kind of element are remembered rightly. -/
theorem perform_matches_anew_pocket :
    (Pocket.validator Pocket.fieldsOnly).Separates ⟨[]⟩ (.graph Pocket.outer [])
      ∧ ((Pocket.validator Pocket.fieldsOnly).perform ⟨[]⟩ (.graph Pocket.outer [])).Matches
        ((Pocket.validator Pocket.fieldsOnly).performAnew ⟨[]⟩ (.graph Pocket.outer [])) := by
  have separates :
      (Pocket.validator Pocket.fieldsOnly).Separates ⟨[]⟩ (.graph Pocket.outer []) := by
    intro root metadata groups _ first second _ _ kind question _
    have answered : ∀ site, Setting.answer ((Pocket.validator Pocket.fieldsOnly).setting ⟨[]⟩ root
        metadata) site kind question = .ok (kind.name != "method") := by
      intro site
      cases kind <;> rfl
    rw [answered, answered]
  exact ⟨separates, perform_matches_anew _ _ _ fun _ => separates⟩

/-- **A remembered answer may be that to another request**: nobody is asked about the member `b` of
the inner map, because the member `a.b` of the outer one has the same path in writing. -/
theorem performAnew_differs :
    (((Pocket.validator Pocket.closed).perform ⟨[]⟩ (.graph Pocket.outer [])).heard.map
        fun violation => violation.path.text) = ["a.b"]
      ∧ ((Pocket.validator Pocket.closed).performAnew ⟨[]⟩ (.graph Pocket.outer [])).failure = none
      ∧ ((Pocket.validator Pocket.closed).performAnew ⟨[]⟩
        (.graph Pocket.outer [])).heard.isEmpty := by
  decide +kernel

end GraphValidation
