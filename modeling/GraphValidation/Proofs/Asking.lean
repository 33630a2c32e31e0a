/-
**What fetching a value does to the memory of a call.**

A question that was asked before is answered from memory; any other one goes to the resolver, and
is noted with its answer.  What is read then is a matter of the context alone.

* `Site.request` — what the resolver is told at a site.
* `ask_recalling`, `propertyValue_recalling`, `fetch_recalling` — **asking and reading, as a matter
  of context and memory**.
* `ask_goes`, `propertyValue_goes`, `fetch_goes` — none of them leaves the site.
* `Sides.fetchAsking` — **ways of fetching that ask abreast stay abreast**.
-/
import GraphValidation.Proofs.Abreast

namespace GraphValidation

/-- What the resolver is told at a site. -/
def Site.request (site : Site) (kind : ElementKind) : ReachabilityRequest :=
  ⟨site.bean, site.path.leaf, site.rootType, site.path.removeLeaf, kind⟩

theorem Setting.answer_eq (setting : Setting) (site : Site) (kind : ElementKind)
    (question : Question) :
    setting.answer site kind question
      = match setting.environment.resolver.answer question (site.request kind) with
        | .ok answer => .ok answer
        | .error source => .error (.resolver question site.bean.text source) := rfl

/-- The memory after the resolver has answered a question at a site. -/
def Memory.answering (memory : Memory) (question : Question) (site : Site) (kind : ElementKind)
    (answer : Bool) : Memory :=
  { memory.noting [.asked question (site.request kind)] with
    answers := (site.key kind question, answer) :: memory.answers }

/-- What has been answered before, or what the resolver answers now, with the memory that this
leaves. -/
def Memory.ask (memory : Memory) (setting : Setting) (question : Question) (kind : ElementKind)
    (site : Site) : Except ValidationError Bool × Memory :=
  match memory.answers.lookup (site.key kind question) with
  | some answer => (.ok answer, memory)
  | none => match setting.answer site kind question with
    | .ok answer => (.ok answer, memory.answering question site kind answer)
    | .error error => (.error error, memory.noting [.asked question (site.request kind)])

/-- The result of a step whose effect is a matter of the memory alone. -/
def Context.concludes {α : Type} (context : Context) :
    Except ValidationError α × Memory → EStateM.Result ValidationError Context α
  | (.ok a, memory) => .ok a (context.recalling memory)
  | (.error error, memory) => .error error (context.recalling memory)

section Steps

variable (setting : Setting) (question : Question) (kind : ElementKind) (access : Access)

theorem ask_recalling (context : Context) (memory : Memory) :
    Run.ask setting.environment question kind (context.recalling memory)
      = context.concludes (memory.ask setting question kind context.site) := by
  unfold Memory.ask
  have same : (context.recalling memory).answers = memory.answers := rfl
  cases known : memory.answers.lookup (context.site.key kind question) with
  | some answer =>
    exact ask_of_known (by rw [same]; exact known)
  | none =>
    rw [ask_of_new setting (by rw [same]; exact known), Context.site_recalling]
    cases setting.answer context.site kind question <;> rfl

/-- What is read is a matter of the context; all that the memory notes is that it was read. -/
theorem propertyValue_recalling (context : Context) :
    ∃ (events : List Event) (result : Except ValidationError Value) (later : Context),
      (events = [] ∨ events = [.read context.bean access context.path])
        ∧ later.site = context.site ∧ ∀ memory : Memory,
          Run.propertyValue setting.environment access (context.recalling memory)
            = later.concludes (result, memory.noting events) := by
  cases given : context.override with
  | some value =>
    refine ⟨[], .ok value, context, .inl rfl, rfl, fun memory => ?_⟩
    have same : (context.recalling memory).override = some value := given
    simp only [Run.propertyValue, Run.bind_apply, Run.get_apply, same]
    rfl
  | none =>
    cases known : context.lastRead.filter fun last => last.1 == access with
    | some last =>
      refine ⟨[], .ok last.2, context, .inl rfl, rfl, fun memory => ?_⟩
      have same : (context.recalling memory).override = none := given
      have last : (context.recalling memory).lastRead.filter (fun last => last.1 == access)
          = some last := known
      simp only [Run.propertyValue, Run.bind_apply, Run.get_apply, same, last]
      rfl
    | none =>
      have given : ∀ memory, (context.recalling memory).override = none := fun _ => given
      cases read : access.read setting.environment.heap context.bean with
      | ok value =>
        refine ⟨_, .ok value, { context with lastRead := some (access, value) }, .inr rfl, rfl,
          fun memory => ?_⟩
        have read : access.read setting.environment.heap (context.recalling memory).bean
            = .ok value := read
        rw [propertyValue_of_new setting (given memory) known, read]
        rfl
      | error error =>
        refine ⟨_, .error (.access context.path.text error), context, .inr rfl, rfl,
          fun memory => ?_⟩
        have read : access.read setting.environment.heap (context.recalling memory).bean
            = .error error := read
        rw [propertyValue_of_new setting (given memory) known, read]
        rfl

end Steps

/-! ### Ways of fetching that differ in how they ask -/

namespace Run

/-- Asks the two questions in some way, the second one only after a yes to the first. -/
def askBoth (ask : Question → ElementKind → Run Bool) (kind : ElementKind) : Run Bool := do
  if ← ask .reachable kind then ask .cascadable kind else pure false

/-- Fetches values by asking in some way. -/
def fetchAsking (environment : Environment) (ask : Question → ElementKind → Run Bool) : Fetch :=
  fun access => do
    if ← askBoth ask access.kind then some <$> propertyValue environment access else pure none

theorem fetch_eq_asking (environment : Environment) :
    fetch environment = fetchAsking environment (ask environment) := rfl

end Run

/-- Asks the two questions, the second one only after a yes to the first. -/
def Memory.askBoth (memory : Memory) (setting : Setting) (kind : ElementKind) (site : Site) :
    Except ValidationError Bool × Memory :=
  match memory.ask setting .reachable kind site with
  | (.ok true, later) => later.ask setting .cascadable kind site
  | (.ok false, later) => (.ok false, later)
  | (.error error, later) => (.error error, later)

section Fetching

variable (setting : Setting) (kind : ElementKind) (access : Access)

theorem askBoth_recalling (context : Context) (memory : Memory) :
    Run.askBoth (Run.ask setting.environment) kind (context.recalling memory)
      = context.concludes (memory.askBoth setting kind context.site) := by
  unfold Run.askBoth Memory.askBoth
  rw [Run.bind_apply, ask_recalling]
  cases memory.ask setting .reachable kind context.site with
  | mk result later =>
    cases result with
    | error error => rfl
    | ok reachable =>
      cases reachable with
      | true => exact ask_recalling setting .cascadable kind context later
      | false => rfl

/-- **Fetching a value asks both questions, and reads where both are answered yes.** -/
theorem fetch_recalling (context : Context) :
    ∃ (events : List Event) (result : Except ValidationError (Option Value)) (later : Context),
      (events = [] ∨ events = [.read context.bean access context.path])
        ∧ later.site = context.site ∧ ∀ memory : Memory,
          Run.fetch setting.environment access (context.recalling memory)
            = match memory.askBoth setting access.kind context.site with
              | (.ok true, asked) => later.concludes (result, asked.noting events)
              | (.ok false, asked) => context.concludes (.ok none, asked)
              | (.error error, asked) => context.concludes (.error error, asked) := by
  obtain ⟨events, value, later, noted, same, reading⟩ :=
    propertyValue_recalling setting access context
  refine ⟨events, value.map some, later, noted, same, fun memory => ?_⟩
  rw [Run.fetch_eq_asking, Run.fetchAsking, Run.bind_apply, askBoth_recalling]
  cases memory.askBoth setting access.kind context.site with
  | mk result asked =>
    cases result with
    | error error => rfl
    | ok allowed =>
      cases allowed with
      | false => rfl
      | true =>
        simp only [Context.concludes, if_true, map_eq_pure_bind, Run.bind_apply, reading]
        cases value <;> rfl

end Fetching

/-! ### Sites -/

/-- A step whose effect is a matter of the memory stays at its site. -/
theorem Goes.of_concludes {α : Type} {site : Site} {step : Run α}
    (concludes : ∀ context : Context, context.site = site →
      ∃ (events : List Event) (result : Except ValidationError α) (later : Context)
        (memory : Memory), later.site = context.site ∧ memory.journal = events ++ context.journal
          ∧ step context = later.concludes (result, memory)) :
    Goes (fun here => here = site) (fun here => here = site) step where
  grows context here := by
    obtain ⟨events, result, later, memory, -, journal, ran⟩ := concludes context here
    have noted : (step.after context).journal = memory.journal := by
      rw [Run.after, ran]
      cases result <;> rfl
    rw [noted, journal]
    exact List.suffix_append events context.journal
  arrives context a later here ok := by
    obtain ⟨events, result, last, memory, same, -, ran⟩ := concludes context here
    rw [ran] at ok
    cases result with
    | ok value =>
      cases ok
      exact same.trans here
    | error error => cases ok

section Goings

variable (setting : Setting) {site : Site}

theorem ask_goes (question : Question) (kind : ElementKind) :
    Goes (fun here => here = site) (fun here => here = site)
      (Run.ask setting.environment question kind) := by
  refine .of_concludes fun context _ => ?_
  have asking := ask_recalling setting question kind context context.memory
  unfold Memory.ask at asking
  split at asking
  · exact ⟨[], _, context, _, rfl, rfl, asking⟩
  · split at asking
    · exact ⟨[_], _, context, _, rfl, rfl, asking⟩
    · exact ⟨[_], _, context, _, rfl, rfl, asking⟩

theorem propertyValue_goes (access : Access) :
    Goes (fun here => here = site) (fun here => here = site)
      (Run.propertyValue setting.environment access) := by
  refine .of_concludes fun context _ => ?_
  obtain ⟨events, result, later, -, same, reading⟩ := propertyValue_recalling setting access context
  exact ⟨events, result, later, context.memory.noting events, same, rfl, reading context.memory⟩

end Goings

namespace Sides

variable {sides : Sides} {site : Site}

theorem propertyValue (reads : sides.NotesReads) (access : Access) :
    sides.Keeps site (Run.propertyValue sides.setting.environment access)
      (Run.propertyValue sides.setting.environment access) := by
  refine ⟨propertyValue_goes sides.setting access, fun context first second _ related _ => ?_⟩
  obtain ⟨events, result, later, noted, -, reading⟩ :=
    propertyValue_recalling sides.setting access context
  have stillRelated : sides.related (first.noting events) (second.noting events) := by
    rcases noted with rfl | rfl
    · exact related
    · exact reads first second related _ _ _
  rw [reading, reading]
  cases result with
  | ok value => exact .ok value later stillRelated
  | error error => exact .error error later stillRelated

end Sides

/-! ### Ways of asking side by side -/

theorem Sides.askBoth {sides : Sides} {site : Site} {kind : ElementKind}
    {ask other : Question → ElementKind → Run Bool}
    (asks : ∀ question, sides.Keeps site (ask question kind) (other question kind)) :
    sides.Keeps site (Run.askBoth ask kind) (Run.askBoth other kind) := by
  refine .bind (asks .reachable) fun reachable => ?_
  cases reachable with
  | true => exact asks .cascadable
  | false => exact nothing false

theorem Sides.fetchAsking {sides : Sides} {site : Site} {access : Access}
    {ask other : Question → ElementKind → Run Bool}
    (asks : ∀ question, sides.Keeps site (ask question access.kind) (other question access.kind))
    (reads : sides.NotesReads) :
    sides.Keeps site (Run.fetchAsking sides.setting.environment ask access)
      (Run.fetchAsking sides.setting.environment other access) := by
  refine .bind (askBoth asks) fun allowed => ?_
  cases allowed with
  | true =>
    simp only [if_true, map_eq_pure_bind]
    exact .bind (propertyValue reads access) fun value => nothing (some value)
  | false => exact nothing none

/-- Fetching a value stays at its site. -/
theorem fetch_goes (setting : Setting) (access : Access) (site : Site) :
    Goes (fun here => here = site) (fun here => here = site)
      (Run.fetch setting.environment access) := by
  let sides : Sides :=
    ⟨setting, fun _ => True, Run.fetch setting.environment, Run.fetch setting.environment, Eq⟩
  have reads : sides.alone.NotesReads := fun _ _ same holder access path =>
    congrArg (fun memory : Memory => memory.noting [.read holder access path]) same
  have asks : ∀ question, sides.alone.Keeps site
      (Run.ask setting.environment question access.kind)
      (Run.ask setting.environment question access.kind) := fun question =>
    Sides.leads_alone (ask_goes setting question access.kind)
  exact (Sides.fetchAsking asks reads).goes

end GraphValidation
