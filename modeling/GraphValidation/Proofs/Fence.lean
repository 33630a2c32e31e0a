/-
**The fence of the resolver.**

Where the engine fetches a value, it has asked both questions about the property before, and was
told yes, if not for this very request then for one that a call takes for the same: it tells
requests apart by the identity of the bean and the text of the path, and that is enough where maps
are not validated like beans.  Only the way along the path of a property call is read without a
question.

* `Setting.Answered` — a question was answered before.
* `Setting.Fenced` — each read was allowed before.
* `Memory.Kept` — what a call remembers was answered before; kept by asking and by fetching.
* `perform_fenced` — **every read is fenced**, but for those on the way along a path.
* `validateProperty_unfenced` — those are not.
-/
import GraphValidation.Proofs.PropertyCalls
import GraphValidation.Proofs.Whereabouts

namespace GraphValidation

/-! ### Answers that were given before -/

/-- Among some events a question was answered at one of the `asked` sites, and a call takes it for
the same question at this site. -/
def Setting.Answered (setting : Setting) (asked : Site → Prop) (events : List Event) (site : Site)
    (kind : ElementKind) (question : Question) (answer : Bool) : Prop :=
  ∃ told, asked told ∧ told.key kind question = site.key kind question
    ∧ .asked question (told.request kind) ∈ events ∧ setting.answer told kind question = .ok answer

theorem Setting.Answered.mono {setting : Setting} {asked : Site → Prop} {events more : List Event}
    {site : Site} {kind : ElementKind} {question : Question} {answer : Bool}
    (answered : setting.Answered asked events site kind question answer) (grown : events <:+ more) :
    setting.Answered asked more site kind question answer := by
  obtain ⟨told, isAsked, key, event, given⟩ := answered
  exact ⟨told, isAsked, key, grown.mem event, given⟩

/-- Both questions about a property were answered yes before. -/
def Setting.Allowed (setting : Setting) (asked : Site → Prop) (events : List Event) (site : Site)
    (kind : ElementKind) : Prop :=
  ∀ question, setting.Answered asked events site kind question true

/-- Of some events, the last one first, each read was allowed before. -/
def Setting.Fenced (setting : Setting) (asked : Site → Prop) (events : List Event) : Prop :=
  ∀ later holder access path earlier, events = later ++ .read holder access path :: earlier →
    ∃ site, asked site ∧ site.bean = holder ∧ site.path = path
      ∧ setting.Allowed asked earlier site access.kind

section Fences

variable {setting : Setting} {asked : Site → Prop} {events : List Event}

theorem Setting.Fenced.nothing : setting.Fenced asked [] := by
  intro later holder access path earlier same
  cases later <;> cases same

theorem Setting.Fenced.cons {event : Event} (fenced : setting.Fenced asked events)
    (allowed : ∀ holder access path, event = .read holder access path →
      ∃ site, asked site ∧ site.bean = holder ∧ site.path = path
        ∧ setting.Allowed asked events site access.kind) :
    setting.Fenced asked (event :: events) := by
  intro later holder access path earlier same
  cases later with
  | nil =>
    cases same
    exact allowed holder access path rfl
  | cons _ later =>
    cases same
    exact fenced later holder access path earlier rfl

theorem Setting.Fenced.append {more : List Event} (fenced : setting.Fenced asked events)
    (noReads : ∀ event ∈ more, Event.isRead event = false) :
    setting.Fenced asked (more ++ events) := by
  induction more with
  | nil => exact fenced
  | cons event rest ih =>
    refine (ih fun other member => noReads other (List.mem_cons_of_mem _ member)).cons ?_
    rintro holder access path rfl
    cases noReads _ List.mem_cons_self

end Fences

/-! ### What a call remembers -/

/-- Since some journal each read was allowed before, and what is remembered was answered. -/
structure Memory.Kept (setting : Setting) (asked : Site → Prop) (start : List Event)
    (memory : Memory) (recent : List Event) : Prop where
  journal : memory.journal = recent ++ start
  fenced : setting.Fenced asked recent
  answers : ∀ site kind question answer,
    memory.answers.lookup (site.key kind question) = some answer →
      setting.Answered asked recent site kind question answer

namespace Memory.Kept

variable {setting : Setting} {asked : Site → Prop} {start recent : List Event} {memory : Memory}

theorem blank (memory : Memory) (unasked : memory.answers = []) :
    memory.Kept setting asked memory.journal [] where
  journal := rfl
  fenced := .nothing
  answers _ _ _ _ found := by
    rw [unasked] at found
    cases found

theorem noting (kept : memory.Kept setting asked start recent) {event : Event}
    (allowed : ∀ holder access path, event = .read holder access path →
      ∃ site, asked site ∧ site.bean = holder ∧ site.path = path
        ∧ setting.Allowed asked recent site access.kind) :
    (memory.noting [event]).Kept setting asked start (event :: recent) where
  journal := congrArg (event :: ·) kept.journal
  fenced := kept.fenced.cons allowed
  answers site kind question answer found :=
    (kept.answers site kind question answer found).mono (List.suffix_cons _ _)

/-- Whatever is no read may be noted. -/
theorem appending (kept : memory.Kept setting asked start recent) {events : List Event}
    (noReads : ∀ event ∈ events, Event.isRead event = false) :
    (memory.noting events).Kept setting asked start (events ++ recent) where
  journal := (congrArg (events ++ ·) kept.journal).trans (List.append_assoc _ _ _).symm
  fenced := kept.fenced.append noReads
  answers site kind question answer found :=
    (kept.answers site kind question answer found).mono (List.suffix_append _ _)

theorem noting_asked (kept : memory.Kept setting asked start recent) (question : Question)
    (request : ReachabilityRequest) :
    (memory.noting [.asked question request]).Kept setting asked start
      (.asked question request :: recent) :=
  kept.noting fun _ _ _ isRead => by cases isRead

/-- An answer of the resolver is kept with the question. -/
theorem answering (kept : memory.Kept setting asked start recent) {site : Site}
    (isAsked : asked site) {kind : ElementKind} {question : Question} {answer : Bool}
    (answered : setting.answer site kind question = .ok answer) :
    (memory.answering question site kind answer).Kept setting asked start
      (.asked question (site.request kind) :: recent) := by
  refine { kept.noting_asked question (site.request kind) with answers := ?_ }
  intro other kind' question' answer' found
  simp only [Memory.answering, List.lookup_cons] at found
  cases same : other.key kind' question' == site.key kind question with
  | false =>
    rw [same] at found
    exact (kept.answers other kind' question' answer' found).mono (List.suffix_cons _ _)
  | true =>
    rw [same] at found
    cases found
    have keys : other.key kind' question' = site.key kind question := by simpa using same
    have kinds : kind' = kind := congrArg AnswerKey.kind keys
    have questions : question' = question := congrArg AnswerKey.question keys
    subst kinds questions
    exact ⟨site, isAsked, keys.symm, List.mem_cons_self, answered⟩

/-- **What was asked has been answered**, now or before. -/
theorem ask (kept : memory.Kept setting asked start recent) {site : Site} (isAsked : asked site)
    (question : Question) (kind : ElementKind) :
    ∃ grown, recent <:+ grown
      ∧ (memory.ask setting question kind site).2.Kept setting asked start grown
      ∧ ∀ answer, (memory.ask setting question kind site).1 = .ok answer →
        setting.Answered asked grown site kind question answer := by
  unfold Memory.ask
  cases known : memory.answers.lookup (site.key kind question) with
  | some answer =>
    refine ⟨recent, List.suffix_rfl, kept, fun _ same => ?_⟩
    cases same
    exact kept.answers site kind question answer known
  | none =>
    cases answered : setting.answer site kind question with
    | error error => exact ⟨_, List.suffix_cons _ _, kept.noting_asked _ _, nofun⟩
    | ok answer =>
      refine ⟨_, List.suffix_cons _ _, kept.answering isAsked answered, fun _ same => ?_⟩
      cases same
      exact ⟨site, isAsked, rfl, List.mem_cons_self, answered⟩

/-- Where both questions are answered yes, a property is allowed. -/
theorem askBoth (kept : memory.Kept setting asked start recent) {site : Site}
    (isAsked : asked site) (kind : ElementKind) :
    ∃ grown, (memory.askBoth setting kind site).2.Kept setting asked start grown
      ∧ ((memory.askBoth setting kind site).1 = .ok true →
        setting.Allowed asked grown site kind) := by
  obtain ⟨first, -, keptFirst, reachable⟩ := kept.ask isAsked .reachable kind
  unfold Memory.askBoth
  cases asking : memory.ask setting .reachable kind site with
  | mk result later =>
    rw [asking] at keptFirst reachable
    cases result with
    | error error => exact ⟨first, keptFirst, nofun⟩
    | ok answer =>
      cases answer with
      | false => exact ⟨first, keptFirst, nofun⟩
      | true =>
        obtain ⟨second, grown, keptSecond, cascadable⟩ := keptFirst.ask isAsked .cascadable kind
        refine ⟨second, keptSecond, fun yes question => ?_⟩
        cases question with
        | reachable => exact (reachable true rfl).mono grown
        | cascadable => exact cascadable true yes

end Memory.Kept

/-! ### One engine behind a fence -/

/-- The engine, with memories that hold what was answered. -/
def Sides.fenced (setting : Setting) (asked : Site → Prop) (start : List Event) : Sides where
  setting
  asked
  first := Run.fetch setting.environment
  second := Run.fetch setting.environment
  related memory other := memory = other ∧ ∃ recent, memory.Kept setting asked start recent

section Engines

variable (setting : Setting) (asked : Site → Prop) (start : List Event)

/-- **A value is fetched behind the fence.** -/
theorem Sides.fenced_fetch (access : Access) (site : Site) (isAsked : asked site) :
    (Sides.fenced setting asked start).Keeps site (Run.fetch setting.environment access)
      (Run.fetch setting.environment access) := by
  refine ⟨fetch_goes setting access site, ?_⟩
  rintro context memory _ rfl ⟨rfl, recent, kept⟩ -
  obtain ⟨events, result, later, noted, -, fetching⟩ := fetch_recalling setting access context
  obtain ⟨grown, keptAsking, allowed⟩ := kept.askBoth isAsked access.kind
  rw [fetching memory]
  cases asking : memory.askBoth setting access.kind context.site with
  | mk answer between =>
    rw [asking] at keptAsking allowed
    cases answer with
    | error error => exact .error error context ⟨rfl, grown, keptAsking⟩
    | ok answer =>
      cases answer with
      | false => exact .ok none context ⟨rfl, grown, keptAsking⟩
      | true =>
        have keptReading : ∃ recent, (between.noting events).Kept setting asked start recent := by
          rcases noted with rfl | rfl
          · exact ⟨grown, keptAsking⟩
          · refine ⟨_, keptAsking.noting ?_⟩
            rintro _ _ _ ⟨⟩
            exact ⟨context.site, isAsked, rfl, rfl, allowed rfl⟩
        cases result with
        | error error => exact .error error later ⟨rfl, keptReading⟩
        | ok value => exact .ok value later ⟨rfl, keptReading⟩

theorem Sides.fenced_lawful : (Sides.fenced setting asked start).Lawful where
  evaluates := by
    rintro memory _ ⟨rfl, recent, kept⟩ bean path group places
    exact ⟨rfl, _, kept.appending (by simp [Event.isRead])⟩
  enters := by
    rintro memory _ ⟨rfl, recent, kept⟩ bean metadata path
    exact ⟨rfl, _, kept.appending (by simp [Event.isRead])⟩
  builds := by
    rintro memory _ ⟨rfl, -⟩ type
    rfl
  consults := by
    rintro memory _ ⟨rfl, recent, kept⟩ type
    exact ⟨rfl, recent, { kept with }⟩
  goes := fetch_goes setting
  fetches := Sides.fenced_fetch setting asked start

end Engines

/-- What runs behind the fence has noted fenced events. -/
theorem Sides.Leads.fenced {setting : Setting} {asked : Site → Prop} {pre post : Site → Prop}
    {step : Run Unit} {context : Context}
    (leads : (Sides.fenced setting asked context.journal).Leads pre post step step)
    (here : pre context.site) (unasked : context.answers = [])
    (encloses : setting.Encloses asked (step.after context).journal) :
    ∃ recent, setting.Fenced asked recent
      ∧ (step.after context).journal = recent ++ context.journal := by
  obtain ⟨_, -, recent, kept⟩ :=
    leads.after here ⟨rfl, [], Memory.Kept.blank context.memory unasked⟩ encloses
  exact ⟨recent, kept.fenced, kept.journal⟩

/-! ### Calls -/

/-- Among some events the resolver allowed to read what is read, as far as a call can tell requests
apart. -/
structure Validator.Permits (validator : Validator) (before : List Event) (holder : Value)
    (access : Access) (path : Path) (question : Question) (told : Site) : Prop where
  asked : .asked question (told.request access.kind) ∈ before
  yes : validator.resolver.answer question (told.request access.kind) = .ok true
  sameBean : told.bean.bean?.map (·.id) = holder.bean?.map (·.id)
  samePath : told.path.text = path.text
  exactly : validator.mapsLikeBeans = false → told.bean = holder ∧ told.path = path

/-- Both questions about all that is read have been answered yes before. -/
def Validator.Fences (validator : Validator) (journal : List Event) : Prop :=
  ∀ before holder access path after, journal = before ++ .read holder access path :: after →
    ∀ question, ∃ told, validator.Permits before holder access path question told

theorem Validator.Fences.nothing {validator : Validator} : validator.Fences [] := by
  intro before holder access path after same
  cases before <;> cases same

theorem Setting.answer_eq_ok {setting : Setting} {site : Site} {kind : ElementKind}
    {question : Question} {answer : Bool}
    (answered : setting.answer site kind question = .ok answer) :
    setting.environment.resolver.answer question (site.request kind) = .ok answer := by
  rw [Setting.answer_eq] at answered
  split at answered
  · next given =>
    cases answered
    exact given
  · cases answered

section Calls

variable {validator : Validator} {heap : Heap}

theorem Setting.Fenced.fences {task : Task} {asked : Site → Prop} {recent : List Event}
    (fenced : (validator.settingFor heap task).Fenced asked recent)
    (apart : validator.mapsLikeBeans = false → Site.Apart asked) :
    validator.Fences recent.reverse := by
  intro before holder access path after same question
  have turned : recent = after.reverse ++ .read holder access path :: before.reverse := by
    rw [← List.reverse_reverse recent, same]
    simp
  obtain ⟨site, isAsked, rfl, rfl, allowed⟩ := fenced _ _ _ _ _ turned
  obtain ⟨told, toldAsked, keys, event, given⟩ := allowed question
  refine ⟨told, List.mem_reverse.mp event, Setting.answer_eq_ok given,
    congrArg AnswerKey.bean keys, congrArg AnswerKey.path keys, fun off => ?_⟩
  cases apart off told site toldAsked isAsked _ _ keys
  exact ⟨rfl, rfl⟩

variable {validation : Validation} {cache : MetadataCache}

/-- A pass reads behind the fence. -/
theorem graph_fenced {root : Value} {metadata : Option MetaBean} {groups : Groups}
    (found : validator.task? heap validation = .ok (.graph root metadata groups))
    (alike : cache.configuration = validator.cache.configuration) :
    ∃ asked, (validator.mapsLikeBeans = false → Site.Apart asked)
      ∧ (validator.settingFor heap (.graph root metadata groups)).Fenced asked
        (validator.journalOf heap (.graph root metadata groups) cache) := by
  let task := Task.graph root metadata groups
  let setting := validator.settingFor heap task
  have fences : ∀ asked, setting.Encloses asked (validator.journalOf heap task cache) →
      setting.Fenced asked (validator.journalOf heap task cache) := by
    intro asked encloses
    have keeps : (Sides.fenced setting asked (Context.ready cache task.rootType).journal).Keeps
        task.home (task.program setting.environment (Run.fetch setting.environment))
        (task.program setting.environment (Run.fetch setting.environment)) :=
      (Sides.fenced_lawful setting asked []).validateGraphBy root metadata groups rfl rfl
    obtain ⟨recent, fenced, journal⟩ := keeps.fenced rfl rfl encloses
    have all : validator.journalOf heap task cache = recent := journal.trans (List.append_nil _)
    rw [all]
    exact fenced
  cases maps : validator.mapsLikeBeans with
  | true => exact ⟨_, nofun, fences (fun _ => True) (setting.encloses_everything _)⟩
  | false =>
    have apart : Site.Apart (setting.PropertySites (setting.itinerary root metadata)) :=
      Setting.apart_at_stops maps
    exact ⟨_, fun _ => apart, fences _ (graph_encloses found alike (apart.consistent setting))⟩

/-- A value in place of a property is validated behind the fence. -/
theorem value_fenced (metadata : MetaBean) (name : String) (given : Value) (groups : Groups) :
    ∃ asked, Site.Apart asked
      ∧ (validator.settingFor heap (.value metadata name given groups)).Fenced asked
        (validator.journalOf heap (.value metadata name given groups) cache) := by
  let task := Task.value metadata name given groups
  let setting := validator.settingFor heap task
  let asked := Site.Under task.home
  have keeps : (Sides.fenced setting asked (Context.ready cache task.rootType).journal).Keeps
      task.home (task.program setting.environment (Run.fetch setting.environment))
      (task.program setting.environment (Run.fetch setting.environment)) :=
    (Sides.fenced_lawful setting asked []).validatePropertyValueBy metadata name given groups
      fun name => ⟨name, rfl⟩
  have encloses : setting.Encloses asked (validator.journalOf heap task cache) :=
    value_encloses asked metadata name given groups fun _ _ _ => List.not_mem_nil
  obtain ⟨recent, fenced, journal⟩ := keeps.fenced rfl rfl encloses
  have all : validator.journalOf heap task cache = recent := journal.trans (List.append_nil _)
  refine ⟨asked, task.home.apart_under, ?_⟩
  rw [all]
  exact fenced

/-- A property is validated behind the fence once its bean has been found. -/
theorem property_fenced (root : Value) (metadata : MetaBean) (path : Path) (groups : Groups) :
    ∃ reads asked recent, (∀ event ∈ reads, Event.isRead event = true) ∧ Site.Apart asked
      ∧ (validator.settingFor heap (.property root metadata path groups)).Fenced asked recent
      ∧ validator.journalOf heap (.property root metadata path groups) cache = recent ++ reads := by
  let task := Task.property root metadata path groups
  let setting := validator.settingFor heap task
  let start := Context.ready cache task.rootType
  let navigate := Engine.navigate setting.environment root metadata .root path.above.reverse
  let arrive := Engine.validateArrivedBy setting.environment (Run.fetch setting.environment)
    path.leaf groups
  have whole : validator.journalOf heap task cache = ((navigate >>= arrive).after start).journal :=
    rfl
  obtain ⟨reads, areReads, left⟩ :=
    navigate_of_ready setting root metadata .root path.above.reverse cache task.rootType
  rcases left with ⟨error, later, followed, journal⟩
    | ⟨arrived, later, followed, here, unasked, journal⟩
  · rw [Run.after_of_error (Run.bind_of_error followed), journal] at whole
    exact ⟨reads, _, [], areReads, task.home.apart_under, .nothing, whole⟩
  · rw [Run.after_bind_of_ok followed] at whole
    let asked := Site.Under (task.home.arrival arrived)
    have leads : (Sides.fenced setting asked later.journal).Leads (fun here => here = task.home)
        (fun _ => True) (arrive arrived) (arrive arrived) :=
      (Sides.fenced_lawful setting asked later.journal).validateArrivedBy path.leaf groups arrived
        (Site.under_arrival task.home arrived)
    have unentered : later.memory.Unentered := .of_reads (by
      rw [show later.memory.journal = reads from journal]
      exact areReads)
    obtain ⟨recent, fenced, journalLater⟩ := leads.fenced here unasked
      (arrived_encloses asked path.leaf groups arrived unentered)
    rw [journalLater, journal] at whole
    exact ⟨reads, asked, recent, areReads, Site.apart_under _, fenced, whole⟩

/-- Only a call for a property is left with a property to validate. -/
theorem property_of_task? {root : Value} {metadata : MetaBean} {path : Path} {groups : Groups}
    (found : validator.task? heap validation = .ok (.property root metadata path groups)) :
    ∃ text requested, validation = .property root text requested := by
  have ofCall := Validator.task?_eq_ok found
  cases validation with
  | property other text requested =>
    obtain ⟨_, _, _, -, -, -, same⟩ := ofCall
    cases same
    exact ⟨text, requested, rfl⟩
  | graph root requested =>
    obtain ⟨_, _, -, -, same⟩ := ofCall
    cases same
  | graphAs root type requested =>
    obtain ⟨_, _, -, -, same⟩ := ofCall
    cases same
  | graphById root id requested =>
    obtain ⟨_, _, -, -, same⟩ := ofCall
    cases same
  | value type name given requested =>
    obtain ⟨_, _, -, -, same⟩ := ofCall
    cases same

/-- **Every read is fenced**, but for those on the way along the path of a property call. -/
theorem perform_fenced (validator : Validator) (heap : Heap) (validation : Validation) :
    ∃ way rest, (validator.perform heap validation).journal = way ++ rest
      ∧ (∀ event ∈ way, Event.isRead event = true)
      ∧ ((∀ root path requested, validation ≠ .property root path requested) → way = [])
      ∧ validator.Fences rest := by
  rw [Validator.perform_eq_by]
  obtain ⟨cache, alike, performed⟩ := performBy_eq validator heap validation
  rw [performed]
  cases found : validator.task? heap validation with
  | error error => exact ⟨[], [], rfl, List.forall_mem_nil _, fun _ => rfl, .nothing⟩
  | ok task =>
    have journal : (validator.outcomeAt (task.program (validator.environment heap)
          (Run.fetch (validator.environment heap)) (.ready cache task.rootType))).journal
        = (validator.journalOf heap task cache).reverse := outcomeAt_journal _ _ _
    dsimp only
    rw [journal]
    cases task with
    | graph root metadata groups =>
      obtain ⟨asked, apart, fenced⟩ := graph_fenced found alike
      exact ⟨[], _, rfl, List.forall_mem_nil _, fun _ => rfl, fenced.fences apart⟩
    | value metadata name given groups =>
      obtain ⟨asked, apart, fenced⟩ := value_fenced metadata name given groups
      exact ⟨[], _, rfl, List.forall_mem_nil _, fun _ => rfl, fenced.fences fun _ => apart⟩
    | property root metadata path groups =>
      obtain ⟨reads, asked, recent, areReads, apart, fenced, whole⟩ :=
        property_fenced root metadata path groups
      rw [whole, List.reverse_append]
      refine ⟨_, _, rfl, fun event member => areReads event (List.mem_reverse.mp member),
        fun other => ?_, fenced.fences fun _ => apart⟩
      obtain ⟨text, requested, same⟩ := property_of_task? found
      exact absurd same (other root text requested)

end Calls

/-- The shelf, with a resolver that lets nobody read its books. -/
def Shelf.closed : Validator :=
  { Shelf.validator Shelf.kind with
    resolver := .ofRules [⟨none, some "books", none, none, .ok false⟩] }

/-- **A call for a property reads its way without a question**: it goes past the books that nobody
may read, and finds that the note has no text. -/
theorem validateProperty_unfenced :
    (∀ question request, request.node.name = some "books" →
        Shelf.closed.resolver.answer question request = .ok false)
      ∧ ((Shelf.closed.perform (Shelf.heap Shelf.home)
          (.property (.bean Shelf.theShelf) "books[0].notes[HOME].text" [])).heard.map
            fun violation => violation.path.text) = ["books[0].notes[HOME].text"]
      ∧ ¬ ∀ before holder access path after,
        (Shelf.closed.perform (Shelf.heap Shelf.home)
          (.property (.bean Shelf.theShelf) "books[0].notes[HOME].text" [])).journal
            = before ++ .read holder access path :: after →
          ∃ request, .asked .reachable request ∈ before
            ∧ Shelf.closed.resolver.answer .reachable request = .ok true := by
  refine ⟨fun question request named => ?_, by decide +kernel, fun fenced => ?_⟩
  · simp only [Shelf.closed, Resolver.ofRules, Resolver.answerByRules, List.find?,
      Resolver.Rule.applies, Resolver.meets, named]
    rfl
  · have first : ((Shelf.closed.perform (Shelf.heap Shelf.home)
        (.property (.bean Shelf.theShelf) "books[0].notes[HOME].text" [])).journal.head?.map
          Event.isRead) = some true := by decide +kernel
    obtain ⟨event, head, isRead⟩ := Option.map_eq_some_iff.mp first
    obtain ⟨rest, journal⟩ := List.head?_eq_some_iff.mp head
    cases event with
    | read holder access path =>
      obtain ⟨request, asked, -⟩ := fenced [] holder access path rest journal
      exact absurd asked List.not_mem_nil
    | asked _ _ => cases isRead
    | entered _ _ _ => cases isRead
    | evaluated _ _ _ _ => cases isRead

end GraphValidation
