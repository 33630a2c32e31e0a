/-
**Steps that keep a ledger.**

A step of a validation tracks an entry when it succeeds or fails as the entry does, with the same
result or error, and leaves a context that shows the same ledger.  What else is in a context — the
last value that was read, the answers of the resolver — must not show in results; `Context.Stands`
says what keeps it from doing so.

* `Tracks.bind`, `Tracks.restoring`, `Tracks.forEach` — steps track entries piece by piece.
* `Context.Stands` — remembered values, answers and metadata are those that would be found anew.
* `ask_tracks`, `propertyValue_tracks`, `evaluate_tracks` — the steps that others are made of.
-/
import GraphValidation.Proofs.Survey

namespace GraphValidation

/-! ### The ledger and the cursor of a context -/

/-- Whether an event is about the graph, and not about the resolver or a member that was read. -/
def Event.isDeed : Event → Bool
  | .entered .. => true
  | .evaluated .. => true
  | .asked .. => false
  | .read .. => false

/-- What a context shows of what has been done. -/
def Context.ledger (context : Context) : Ledger :=
  ⟨context.processed, context.reported, context.journal.filter Event.isDeed⟩

/-- Where a validation stands: on which bean and property, at which path, in which group, and after
which beans of the pass. -/
structure Cursor where
  bean : Value
  metadata : Option MetaBean
  property : Option String
  path : Path
  group : TypeKey
  visited : List String

/-- Where a context stands. -/
def Context.cursor (context : Context) : Cursor :=
  ⟨context.bean, context.metadata, context.property, context.path, context.group, context.visited⟩

/-! ### Tracking -/

/-- The same success or the same failure, with the same ledger; `post` holds where it is a
success. -/
inductive Agree {α : Type} (post : α → Context → Prop) :
    EStateM.Result ValidationError Context α → EStateM.Result ValidationError Ledger α → Prop
  | ok (a : α) (later : Context) : post a later → Agree post (.ok a later) (.ok a later.ledger)
  | error (error : ValidationError) (later : Context) :
    Agree post (.error error later) (.error error later.ledger)

/-- A step does on a context what an entry does on its ledger, and leads to `post`. -/
def Tracks {α : Type} (step : Run α) (context : Context) (entry : Entry α)
    (post : α → Context → Prop) : Prop :=
  Agree post (step context) (entry context.ledger)

namespace Tracks

variable {α β : Type} {step : Run α} {context : Context} {entry : Entry α}
  {post : α → Context → Prop}

theorem success {a : α} (tracked : Tracks step context (pure a) post) :
    ∃ later, step context = .ok a later ∧ later.ledger = context.ledger ∧ post a later := by
  unfold Tracks at tracked
  rw [Run.pure_apply] at tracked
  generalize context.ledger = ledger at tracked
  generalize step context = result at tracked
  cases tracked with
  | ok _ later holds => exact ⟨later, rfl, rfl, holds⟩

theorem failure {error : ValidationError} (tracked : Tracks step context (throw error) post) :
    ∃ later, step context = .error error later ∧ later.ledger = context.ledger := by
  unfold Tracks at tracked
  rw [Run.throw_apply] at tracked
  generalize context.ledger = ledger at tracked
  generalize step context = result at tracked
  cases tracked with
  | error _ later => exact ⟨later, rfl, rfl⟩

theorem bind {next : α → Run β} {later : α → Entry β} {ending : β → Context → Prop}
    (first : Tracks step context entry post)
    (second : ∀ a middle, post a middle → Tracks (next a) middle (later a) ending) :
    Tracks (step >>= next) context (entry >>= later) ending := by
  unfold Tracks at first ⊢
  rw [Run.bind_apply, Run.bind_apply]
  generalize step context = result at first
  generalize entry context.ledger = shown at first
  cases first with
  | ok a middle holds => exact second a middle holds
  | error error middle => exact .error error middle

/-- A step at the end that does nothing to the ledger. -/
theorem finish {step : Run Unit} {next : Run Unit} {entry : Entry Unit} {post : Unit → Context → Prop}
    {ending : Unit → Context → Prop} (first : Tracks step context entry post)
    (second : ∀ middle, post () middle → Tracks next middle (pure ()) ending) :
    Tracks (do step; next) context entry ending := by
  have both := bind first fun _ middle holds => second middle holds
  rw [bind_pure_unit] at both
  exact both

theorem weaken {weaker : α → Context → Prop} (first : Tracks step context entry post)
    (implies : ∀ a later, post a later → weaker a later) : Tracks step context entry weaker := by
  unfold Tracks at first ⊢
  generalize step context = result at first
  generalize entry context.ledger = shown at first
  cases first with
  | ok a later holds => exact .ok a later (implies a later holds)
  | error error later => exact .error error later

theorem of_ok {a : α} {later : Context} (ok : step context = .ok a later)
    (same : later.ledger = context.ledger) (holds : post a later) :
    Tracks step context (pure a) post := by
  unfold Tracks
  rw [ok, Run.pure_apply, ← same]
  exact .ok a later holds

theorem of_error {error : ValidationError} {later : Context}
    (failed : step context = .error error later) (same : later.ledger = context.ledger) :
    Tracks step context (throw error) post := by
  unfold Tracks
  rw [failed, Run.throw_apply, ← same]
  exact .error error later

/-- A result that is known: the step goes on with it. -/
theorem bind_of_ok {a : α} {next : α → Run β} {entry : Entry β} {ending : β → Context → Prop}
    (first : Tracks step context (pure a) post)
    (second : ∀ middle, post a middle → Tracks (next a) middle entry ending) :
    Tracks (step >>= next) context entry ending := by
  obtain ⟨middle, ran, same, holds⟩ := first.success
  have following := second middle holds
  unfold Tracks at following ⊢
  rw [Run.bind_of_ok ran, ← same]
  exact following

/-- A failure that is known: the step fails too. -/
theorem bind_of_error {next : α → Run β} {error : ValidationError} {ending : β → Context → Prop}
    (failed : Tracks step context (throw error) post) :
    Tracks (step >>= next) context (throw error) ending := by
  obtain ⟨later, ran, same⟩ := failed.failure
  exact of_error (Run.bind_of_error ran) same

/-- A step that changes the context at first, but not its ledger. -/
theorem after {first : Run β} {next : β → Run α} {b : β} {middle : Context}
    (ok : first context = .ok b middle) (same : middle.ledger = context.ledger)
    (second : Tracks (next b) middle entry post) : Tracks (first >>= next) context entry post := by
  unfold Tracks at second ⊢
  rw [Run.bind_of_ok ok, ← same]
  exact second

/-- A change at the end that does not show in the ledger. -/
theorem restoring {restore : Context → Context} {ending : α → Context → Prop}
    (first : Tracks step context entry post)
    (same : ∀ later, (restore later).ledger = later.ledger)
    (restored : ∀ a later, post a later → ending a (restore later)) :
    Tracks (Run.restoring step restore) context entry ending := by
  unfold Tracks at first ⊢
  rw [Run.restoring_apply]
  generalize step context = result at first
  generalize entry context.ledger = shown at first
  cases first with
  | ok a later holds =>
    rw [← same later]
    exact .ok a (restore later) (restored a later holds)
  | error error later =>
    rw [← same later]
    exact .error error (restore later)

/-- Steps for the elements of a list track entries for them, if each keeps what the next one
needs. -/
theorem forEach {each : β → Run Unit} {entries : β → Entry Unit} (kept : Context → Prop)
    (items : List β)
    (tracks : ∀ item ∈ items, ∀ context, kept context →
      Tracks (each item) context (entries item) fun _ later => kept later)
    (holds : kept context) :
    Tracks (Run.forEach each items) context (Entry.each entries items)
      fun _ later => kept later := by
  induction items generalizing context with
  | nil => exact of_ok rfl rfl holds
  | cons item rest ih =>
    refine bind (tracks item List.mem_cons_self context holds) fun _ middle holds => ?_
    exact ih (fun item member => tracks item (List.mem_cons_of_mem _ member)) holds

/-- Steps for the elements of a list track entries for the parts of the elements. -/
theorem forEach_flatMap {γ : Type} {each : β → Run Unit} {part : γ → Entry Unit}
    {parts : β → List γ} (kept : Context → Prop) (items : List β)
    (tracks : ∀ item ∈ items, ∀ context, kept context →
      Tracks (each item) context (Entry.each part (parts item)) fun _ later => kept later)
    (holds : kept context) :
    Tracks (Run.forEach each items) context (Entry.each part (items.flatMap parts))
      fun _ later => kept later := by
  induction items generalizing context with
  | nil => exact of_ok rfl rfl holds
  | cons item rest ih =>
    rw [List.flatMap_cons, Entry.each_append]
    refine bind (tracks item List.mem_cons_self context holds) fun _ middle holds => ?_
    exact ih (fun item member => tracks item (List.mem_cons_of_mem _ member)) holds

end Tracks

/-! ### What a context remembers -/

/-- The question that a context would find answered at a site. -/
def Site.key (site : Site) (kind : ElementKind) (question : Question) : AnswerKey :=
  ⟨site.bean.bean?.map (·.id), site.path.text, kind, question⟩

/-- Sites with the same keys get the same answers. -/
def Setting.Consistent (setting : Setting) (asked : Site → Prop) : Prop :=
  ∀ first second, asked first → asked second → ∀ kind question,
    first.key kind question = second.key kind question →
      setting.answer first kind question = setting.answer second kind question

/-- **What a context remembers is what would be found anew**: the value that was read last, the
metadata of types, and the answers at the sites where the resolver is asked. -/
structure Context.Stands (setting : Setting) (asked : Site → Prop) (context : Context) : Prop where
  rootType : context.rootType = setting.rootType
  override : context.override = none
  isolated : context.isolated = []
  count : context.violationCount = context.reported.length
  metadata : ∀ type, context.cache.configuration.build type = setting.metadata type
  lastRead : ∀ last, context.lastRead = some last →
    last.1.read setting.environment.heap context.bean = .ok last.2
  answers : ∀ site, asked site → ∀ kind question answer,
    context.answers.lookup (site.key kind question) = some answer →
      setting.answer site kind question = .ok answer

/-- A context that stands at a cursor. -/
def Leaves (setting : Setting) (asked : Site → Prop) {α : Type} (cursor : Cursor) :
    α → Context → Prop :=
  fun _ later => later.Stands setting asked ∧ later.cursor = cursor

/-! ### The steps that others are made of -/

section Steps

variable {setting : Setting} {asked : Site → Prop} {context : Context}

theorem Context.Stands.with_cache (stands : context.Stands setting asked) (type : TypeKey) :
    Context.Stands setting asked { context with cache := (context.cache.get type).2 } :=
  { stands with
    metadata := fun other => by
      rw [MetadataCache.get_snd_configuration]
      exact stands.metadata other }

theorem metadataOf_of_ok {type : TypeKey} {metadata : MetaBean}
    (built : context.cache.configuration.build type = .ok metadata) :
    Run.metadataOf type context
      = .ok metadata { context with cache := (context.cache.get type).2 } := by
  rw [← context.cache.get_fst type] at built
  unfold Run.metadataOf
  generalize context.cache.get type = got at built
  obtain ⟨result, cache⟩ := got
  cases built
  rfl

theorem metadataOf_of_error {type : TypeKey} {error : ConfigError}
    (failed : context.cache.configuration.build type = .error error) :
    Run.metadataOf type context
      = .error (.config error) { context with cache := (context.cache.get type).2 } := by
  rw [← context.cache.get_fst type] at failed
  unfold Run.metadataOf
  generalize context.cache.get type = got at failed
  obtain ⟨result, cache⟩ := got
  cases failed
  rfl

theorem metadataOf_tracks (stands : context.Stands setting asked) (type : TypeKey) :
    Tracks (Run.metadataOf type) context
      (Entry.ofExcept (match setting.metadata type with
        | .ok metadata => .ok metadata
        | .error error => .error (.config error)))
      (Leaves setting asked context.cursor) := by
  cases built : setting.metadata type with
  | ok metadata =>
    have ran := metadataOf_of_ok ((stands.metadata type).trans built)
    exact Tracks.of_ok ran rfl ⟨stands.with_cache type, rfl⟩
  | error error =>
    have ran := metadataOf_of_error ((stands.metadata type).trans built)
    exact Tracks.of_error ran rfl

/-- A question that was answered before gets the same answer. -/
theorem ask_of_known {question : Question} {kind : ElementKind} {answer : Bool}
    (known : context.answers.lookup (context.site.key kind question) = some answer) :
    Run.ask setting.environment question kind context = .ok answer context := by
  have found : context.answers.lookup
      ⟨context.bean.bean?.map (·.id), context.path.text, kind, question⟩ = some answer := known
  simp only [Run.ask, Run.bind_apply, Run.get_apply, found]
  rfl

/-- The context after a question was answered by the resolver. -/
def Context.answering (context : Context) (question : Question) (kind : ElementKind)
    (answer : Bool) : Context :=
  { context with
    journal := .asked question ⟨context.bean, context.path.leaf, context.rootType,
      context.path.removeLeaf, kind⟩ :: context.journal
    answers := (context.site.key kind question, answer) :: context.answers }

/-- A new question goes to the resolver. -/
theorem ask_of_new (setting : Setting) {question : Question} {kind : ElementKind}
    (new : context.answers.lookup (context.site.key kind question) = none) :
    Run.ask setting.environment question kind context
      = match setting.answer context.site kind question with
        | .ok answer => .ok answer (context.answering question kind answer)
        | .error error => .error error
          { context.answering question kind false with answers := context.answers } := by
  have unknown : context.answers.lookup
      ⟨context.bean.bean?.map (·.id), context.path.text, kind, question⟩ = none := new
  simp only [Run.ask, Run.bind_apply, Run.get_apply, unknown, Run.record_apply, Setting.answer,
    Context.site]
  cases setting.environment.resolver.answer question
    ⟨context.bean, context.path.leaf, context.rootType, context.path.removeLeaf, kind⟩ <;> rfl

theorem Context.Stands.answering (consistent : setting.Consistent asked)
    (stands : context.Stands setting asked) {question : Question} {kind : ElementKind}
    {answer : Bool} (member : asked context.site)
    (answered : setting.answer context.site kind question = .ok answer) :
    (context.answering question kind answer).Stands setting asked :=
  { stands with
    answers := by
      intro site siteAsked kind' question' answer' found
      simp only [Context.answering, List.lookup_cons] at found
      cases same : site.key kind' question' == context.site.key kind question with
      | false =>
        rw [same] at found
        exact stands.answers site siteAsked kind' question' answer' found
      | true =>
        rw [same] at found
        have keys : site.key kind' question' = context.site.key kind question := by
          simpa using same
        have kinds : kind' = kind := congrArg AnswerKey.kind keys
        have questions : question' = question := congrArg AnswerKey.question keys
        subst kinds questions
        rw [consistent site context.site siteAsked member _ _ keys, answered]
        exact congrArg _ (Option.some.inj found) }

theorem ask_tracks (consistent : setting.Consistent asked)
    (stands : context.Stands setting asked) (question : Question) (kind : ElementKind)
    (member : asked context.site) :
    Tracks (Run.ask setting.environment question kind) context
      (Entry.ofExcept (setting.answer context.site kind question))
      (Leaves setting asked context.cursor) := by
  cases known : context.answers.lookup (context.site.key kind question) with
  | some answer =>
    rw [stands.answers _ member kind question answer known]
    exact Tracks.of_ok (ask_of_known known) rfl ⟨stands, rfl⟩
  | none =>
    have asking := ask_of_new setting known
    cases answered : setting.answer context.site kind question with
    | ok answer =>
      rw [answered] at asking
      exact Tracks.of_ok asking rfl ⟨stands.answering consistent member answered, rfl⟩
    | error error =>
      rw [answered] at asking
      exact Tracks.of_error asking rfl

theorem Context.Stands.site_eq {later : Context} (stands : context.Stands setting asked)
    (standsLater : later.Stands setting asked) (same : later.cursor = context.cursor) :
    later.site = context.site := by
  have beans : later.bean = context.bean := congrArg Cursor.bean same
  have paths : later.path = context.path := congrArg Cursor.path same
  have properties : later.property = context.property := congrArg Cursor.property same
  simp only [Context.site, stands.rootType, standsLater.rootType, beans, paths, properties]

/-- The two questions are asked in turn, the second one only after the first was answered yes. -/
theorem Entry.ofExcept_isOpen (site : Site) (kind : ElementKind) :
    (Entry.ofExcept (setting.isOpen site kind) : Entry Bool) = (do
      if ← Entry.ofExcept (setting.answer site kind .reachable) then
        Entry.ofExcept (setting.answer site kind .cascadable)
      else pure false) := by
  unfold Setting.isOpen
  cases setting.answer site kind .reachable with
  | error error => rfl
  | ok answer => cases answer <;> rfl

theorem isTraversable_tracks (consistent : setting.Consistent asked)
    (stands : context.Stands setting asked) (access : Access) (member : asked context.site) :
    Tracks (Run.isTraversable setting.environment access) context
      (Entry.ofExcept (setting.isOpen context.site access.kind))
      (Leaves setting asked context.cursor) := by
  rw [Entry.ofExcept_isOpen]
  refine Tracks.bind (ask_tracks consistent stands .reachable access.kind member) ?_
  rintro reachable middle ⟨standsMiddle, same⟩
  have site := stands.site_eq standsMiddle same
  cases reachable with
  | false => exact Tracks.of_ok rfl rfl ⟨standsMiddle, same⟩
  | true =>
    have cascadable := ask_tracks consistent standsMiddle .cascadable access.kind (site ▸ member)
    rw [site, same] at cascadable
    exact cascadable

theorem propertyValue_of_new (setting : Setting) {access : Access}
    (override : context.override = none)
    (forgotten : (context.lastRead.filter fun last => last.1 == access) = none) :
    Run.propertyValue setting.environment access context
      = match access.read setting.environment.heap context.bean with
        | .ok value => .ok value
          { context with
            journal := .read context.bean access context.path :: context.journal
            lastRead := some (access, value) }
        | .error error => .error (.access context.path.text error)
          { context with
            journal := .read context.bean access context.path :: context.journal } := by
  simp only [Run.propertyValue, Run.bind_apply, Run.get_apply, override, forgotten, Run.record_apply]
  cases access.read setting.environment.heap context.bean <;> rfl

/-- The value that is remembered is the one that the access would read. -/
theorem propertyValue_tracks (stands : context.Stands setting asked) (access : Access) :
    Tracks (Run.propertyValue setting.environment access) context
      (Entry.ofExcept (setting.value context.site access))
      (Leaves setting asked context.cursor) := by
  cases remembered : context.lastRead.filter fun last => last.1 == access with
  | some last =>
    obtain ⟨isLast, sameAccess⟩ := Option.filter_eq_some_iff.mp remembered
    have read := stands.lastRead last isLast
    have access_eq : last.1 = access := by simpa using sameAccess
    rw [access_eq] at read
    have given : setting.value context.site access = .ok last.2 := by
      simp only [Setting.value, Context.site, read]
    have step : Run.propertyValue setting.environment access context = .ok last.2 context := by
      simp only [Run.propertyValue, Run.bind_apply, Run.get_apply, stands.override, remembered,
        Run.pure_apply]
    rw [given]
    exact Tracks.of_ok step rfl ⟨stands, rfl⟩
  | none =>
    have step := propertyValue_of_new setting stands.override remembered
    cases read : access.read setting.environment.heap context.bean with
    | ok value =>
      have given : setting.value context.site access = .ok value := by
        simp only [Setting.value, Context.site, read]
      rw [read] at step
      rw [given]
      refine Tracks.of_ok step rfl ⟨{ stands with lastRead := ?_ }, rfl⟩
      rintro last isLast
      cases isLast
      exact read
    | error error =>
      have given : setting.value context.site access
          = .error (.access context.path.text error) := by
        simp only [Setting.value, Context.site, read]
      rw [read] at step
      rw [given]
      exact Tracks.of_error step rfl

theorem ledger_noting (outside : context.isolated = []) (findings : Findings) :
    (context.noting findings).ledger
      = context.ledger.noting context.site context.group findings := by
  have evaluations : (findings.places.map
      (Event.evaluated context.bean context.path context.group)).reverse.filter Event.isDeed
        = (findings.places.map (Event.evaluated context.bean context.path context.group)).reverse :=
    List.filter_eq_self.mpr fun event member => by
      obtain ⟨place, -, rfl⟩ := List.mem_map.mp (List.mem_reverse.mp member)
      rfl
  simp [Context.ledger, Context.noting, Ledger.noting, Context.site, outside,
    List.filter_append, evaluations]

theorem Context.Stands.noting (stands : context.Stands setting asked) (findings : Findings) :
    (context.noting findings).Stands setting asked :=
  { stands with
    isolated := by simp [Context.noting, stands.isolated, countMore]
    count := by
      simp [Context.noting, stands.isolated, stands.count, Nat.add_comm] }

theorem evaluate_tracks (stands : context.Stands setting asked) (place : NodePlace) (value : Value)
    (node : ConstraintNode) :
    Tracks (Engine.evaluate setting.environment place value node) context
      (Entry.note context.site context.group
        (judge setting.environment context.site place value node))
      (Leaves setting asked context.cursor) := by
  unfold Tracks
  rw [Engine.evaluate_apply]
  generalize judge setting.environment context.site place value node = findings
  unfold Context.concluding Entry.note
  rw [← ledger_noting stands.isolated findings]
  cases findings.failure with
  | none => exact .ok () _ ⟨stands.noting findings, rfl⟩
  | some error => exact .error error _

theorem markProcessed_tracks (stands : context.Stands setting asked) (place : NodePlace) :
    Tracks (Run.markProcessed place) context (Entry.claim context.bean place)
      (Leaves setting asked context.cursor) := by
  unfold Tracks
  simp only [Run.markProcessed, Run.bind_apply, Run.get_apply, Entry.claim]
  cases context.bean.bean? with
  | none => exact .ok true context ⟨stands, rfl⟩
  | some ref =>
    change Agree _ ((if context.processed.contains (ref.id, place) then _ else _ : Run Bool) context)
      (if context.processed.contains (ref.id, place) then _ else _)
    cases context.processed.contains (ref.id, place) with
    | true => exact .ok false context ⟨stands, rfl⟩
    | false =>
      exact .ok true { context with processed := (ref.id, place) :: context.processed }
        ⟨{ stands with }, rfl⟩

end Steps

end GraphValidation
