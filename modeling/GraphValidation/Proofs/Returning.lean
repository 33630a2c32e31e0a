/-
**Where a step comes back to.**

A visit of a bean changes the bean, its metadata, the property, the group and the path under
validation while it is under way.  Each of these is put back by the step that has changed it, whether
what is done in between succeeds or fails; what is left open by one step, such as the mark of an
element on the leaf of the path, is undone by the one around it.  Composites under evaluation are
another matter: they would count what a visit reports, but no visit is made under one.

* `Context.frame` — what a visit has to leave as it was.
* `Returns` — a step that comes back to the frame, seen without what it may leave changed, and that
  another step can stand for while no composite is under evaluation; with rules for sequencing.
* `Returns.onProperty`, `Returns.onBean`, `Returns.withDefaultSequence` — the steps that put back.
* `validateBean_returns` — **visits come back to where they started**, at whatever depth.
-/
import GraphValidation.Proofs.Passage
import GraphValidation.Proofs.SideBySide

namespace GraphValidation

/-! ### Frames -/

/-- The bean, the property, the group and the path under validation, with the composites under
evaluation. -/
structure Frame where
  bean : Value
  metadata : Option MetaBean
  property : Option String
  group : TypeKey
  path : Path
  isolated : List Nat

/-- The frame in which a context stands. -/
def Context.frame (context : Context) : Frame :=
  ⟨context.bean, context.metadata, context.property, context.group, context.path, context.isolated⟩

namespace Frame

/-- A frame without its property. -/
def unnamed (frame : Frame) : Frame := { frame with property := none }

/-- A frame whose leaf has no mark. -/
def unmarked (frame : Frame) : Frame := { frame with path := frame.path.markLeaf .plain }

/-- A frame without its group. -/
def ungrouped (frame : Frame) : Frame := { frame with group := .defaultGroup }

end Frame

namespace Path

theorem markLeaf_mark (path : Path) : path.markLeaf path.leaf.mark = path := rfl

/-- Paths that differ in the mark of the leaf have one parent. -/
theorem removeLeaf_of_markLeaf {path other : Path} {mark : Mark}
    (same : path.markLeaf mark = other.markLeaf mark) : path.removeLeaf = other.removeLeaf := by
  have above : (path.markLeaf mark).above = (other.markLeaf mark).above :=
    congrArg Path.above same
  change path.above = other.above at above
  simp only [removeLeaf, above]

end Path

/-! ### Steps that come back -/

/-- At a context a step comes back to the frame, as far as a view shows it, and another step does the
same.  No composite has come under evaluation. -/
structure ReturnsAt {α : Type} (view : Frame → Frame) (step other : Run α) (context : Context) :
    Prop where
  frame : view (step.after context).frame = view context.frame
  calm : (step.after context).isolated = []
  alike : other context = step context

/-- A step comes back, and another one does the same, from wherever no composite is under
evaluation. -/
def Returns {α : Type} (view : Frame → Frame) (step other : Run α) : Prop :=
  ∀ context, context.isolated = [] → ReturnsAt view step other context

namespace Run

theorem after_restoring {α : Type} (step : Run α) (restore : Context → Context)
    (context : Context) : (restoring step restore).after context = restore (step.after context) := by
  unfold after
  rw [restoring_apply]
  cases step context <;> rfl

theorem after_modify_bind {α : Type} (change : Context → Context) (step : Run α)
    (context : Context) :
    (do modify change; step : Run α).after context = step.after (change context) :=
  after_bind_of_ok (modify_apply change context)

end Run

namespace Returns

variable {α β : Type} {view coarser : Frame → Frame}

/-- A step that leaves all of the frame. -/
theorem of_kept {step : Run α} (kept : ∀ context : Context, context.isolated = [] →
    (step.after context).frame = context.frame) : Returns view step step := by
  intro context calm
  have same := kept context calm
  exact ⟨congrArg view same, (congrArg Frame.isolated same).trans calm, rfl⟩

theorem pure (a : α) : Returns view (Pure.pure a) (Pure.pure a) := of_kept fun _ _ => rfl

theorem ofExcept {ε : Type} (wrap : ε → ValidationError) (result : Except ε α) :
    Returns view (Run.ofExcept wrap result) (Run.ofExcept wrap result) :=
  of_kept fun _ _ => by cases result <;> rfl

theorem modify {change : Context → Context}
    (kept : ∀ context, view (change context).frame = view context.frame)
    (calm : ∀ context, (change context).isolated = context.isolated) :
    Returns view (modify change : Run PUnit) (modify change : Run PUnit) :=
  fun context isCalm => ⟨kept context, (calm context).trans isCalm, rfl⟩

theorem record (event : Event) : Returns view (Run.record event) (Run.record event) :=
  modify (fun _ => rfl) fun _ => rfl

/-- What comes back as seen by a view comes back as seen by one that shows less. -/
theorem coarsen {step other : Run α} (returns : Returns view step other)
    (less : ∀ first second, view first = view second → coarser first = coarser second) :
    Returns coarser step other := fun context calm =>
  let here := returns context calm
  ⟨less _ _ here.frame, here.calm, here.alike⟩

/-- A step that leaves the whole frame leaves each view of it. -/
theorem whole {step other : Run α} (returns : Returns id step other) : Returns view step other :=
  returns.coarsen fun _ _ same => congrArg view same

theorem bind {step other : Run α} {next following : α → Run β} (first : Returns view step other)
    (second : ∀ a, Returns view (next a) (following a)) :
    Returns view (step >>= next) (other >>= following) := by
  intro context calm
  obtain ⟨frame, calmLater, alike⟩ := first context calm
  cases ran : step context with
  | ok a middle =>
    rw [Run.after_of_ok ran] at frame calmLater
    obtain ⟨frameLater, calmLast, alikeLater⟩ := second a middle calmLater
    refine ⟨?_, ?_, ?_⟩
    · rw [Run.after_bind_of_ok ran]
      exact frameLater.trans frame
    · rw [Run.after_bind_of_ok ran]
      exact calmLast
    · rw [Run.bind_of_ok ran, Run.bind_of_ok (alike.trans ran)]
      exact alikeLater
  | error error later =>
    have failed : (step >>= next) context = .error error later := Run.bind_of_error ran
    rw [Run.after_of_error ran] at frame calmLater
    rw [← Run.after_of_error failed] at frame calmLater
    exact ⟨frame, calmLater, (Run.bind_of_error (alike.trans ran)).trans failed.symm⟩

/-- A step that looks at the context first. -/
theorem getAt {next following : Context → Run α} (here : ∀ context, context.isolated = [] →
    ReturnsAt view (next context) (following context) context) :
    Returns view (MonadState.get >>= next) (MonadState.get >>= following) :=
  fun context calm => ⟨(here context calm).frame, (here context calm).calm, (here context calm).alike⟩

theorem get {next following : Context → Run α}
    (alike : ∀ context, Returns view (next context) (following context)) :
    Returns view (MonadState.get >>= next) (MonadState.get >>= following) :=
  getAt fun context => alike context context

theorem branch {step other next following : Run α} {condition : Prop} [Decidable condition]
    (first : Returns view step other) (second : Returns view next following) :
    Returns view (if condition then step else next) (if condition then other else following) := by
  split
  · exact first
  · exact second

theorem forEach {step other : α → Run Unit} (steps : ∀ item, Returns view (step item) (other item))
    (items : List α) : Returns view (Run.forEach step items) (Run.forEach other items) := by
  induction items with
  | nil => exact pure ()
  | cons item rest ih => exact bind (steps item) fun _ => ih

/-! ### The steps that the engine is made of -/

theorem markVisited (ref : BeanRef) : Returns view (Run.markVisited ref) (Run.markVisited ref) :=
  of_kept fun context _ => by
    rw [Run.after, Run.markVisited_apply]
    cases context.visited.contains ref.id <;> rfl

theorem markProcessed (place : NodePlace) :
    Returns view (Run.markProcessed place) (Run.markProcessed place) :=
  of_kept fun context _ => by
    rw [Run.after, Run.markProcessed_apply]
    cases context.bean.bean? with
    | none => rfl
    | some ref =>
      dsimp only
      cases context.processed.contains (ref.id, place) <;> rfl

theorem metadataOf (type : TypeKey) : Returns view (Run.metadataOf type) (Run.metadataOf type) :=
  of_kept fun context _ => by
    cases built : context.cache.configuration.build type with
    | ok metadata => rw [Run.after_of_ok (metadataOf_of_ok built)]; rfl
    | error error => rw [Run.after_of_error (metadataOf_of_error built)]; rfl

section Steps

variable (environment : Environment)

theorem ask (question : Question) (kind : ElementKind) :
    Returns view (Run.ask environment question kind) (Run.ask environment question kind) := by
  refine get fun context => ?_
  dsimp only
  split
  · exact pure _
  · exact bind (record _) fun _ => bind (ofExcept _ _) fun answer =>
      bind (modify (fun _ => rfl) fun _ => rfl) fun _ => pure answer

theorem isTraversable (access : Access) :
    Returns view (Run.isTraversable environment access) (Run.isTraversable environment access) :=
  bind (ask environment _ _) fun _ => branch (ask environment _ _) (pure false)

theorem propertyValue (access : Access) :
    Returns view (Run.propertyValue environment access) (Run.propertyValue environment access) := by
  refine get fun context => ?_
  split
  · exact pure _
  · split
    · exact pure _
    · exact bind (record _) fun _ => bind (ofExcept _ _) fun value =>
        bind (modify (fun _ => rfl) fun _ => rfl) fun _ => pure value

/-- **What is evaluated below a composite that reports as one is counted there**, and the composite
is left before anything else is done. -/
theorem evaluate (place : NodePlace) (value : Value) (node : ConstraintNode) :
    Returns view (Engine.evaluate environment place value node)
      (Engine.evaluate environment place value node) := by
  refine of_kept fun context calm => ?_
  rw [Run.after_evaluate]
  simp only [Context.frame, Context.noting, calm, countMore]

theorem validateConstraint (place : NodePlace) (node : ConstraintNode) :
    Returns view (Engine.validateConstraint environment place node)
      (Engine.validateConstraint environment place node) := by
  refine get fun context => branch (pure ()) (bind (markProcessed place) fun isNew =>
    branch (pure ()) ?_)
  cases node.content.access with
  | none => exact evaluate environment place context.bean node
  | some access =>
    exact bind (isTraversable environment access) fun _ =>
      branch (bind (propertyValue environment access) fun value =>
        evaluate environment place value node) (pure ())

theorem validateConstraints (type : TypeKey) (property : Option String) (index : Nat)
    (nodes : List ConstraintNode) :
    Returns view (Engine.validateConstraints environment type property index nodes)
      (Engine.validateConstraints environment type property index nodes) := by
  induction nodes generalizing index with
  | nil => exact pure ()
  | cons node rest ih => exact bind (validateConstraint environment _ node) fun _ => ih (index + 1)

end Steps

end Returns

/-! ### The steps that put back -/

namespace ReturnsAt

variable {step other : Run Unit} {view outer : Frame → Frame} {enter leave : Context → Context}
  {context : Context}

/-- A step whose context is put back at its end. -/
theorem restoring (inner : ReturnsAt view step other context)
    (leaving : ∀ later, (leave later).isolated = later.isolated)
    (back : ∀ later : Context, view later.frame = view context.frame →
      outer (leave later).frame = outer context.frame) :
    ReturnsAt outer (Run.restoring step leave) (Run.restoring other leave) context where
  frame := by
    rw [Run.after_restoring]
    exact back _ inner.frame
  calm := by
    rw [Run.after_restoring, leaving]
    exact inner.calm
  alike := by rw [Run.restoring_apply, Run.restoring_apply, inner.alike]

/-- A step whose context is changed at its start, and put back at its end. -/
theorem within (inner : ReturnsAt view step other (enter context))
    (leaving : ∀ later, (leave later).isolated = later.isolated)
    (back : ∀ later : Context, view later.frame = view (enter context).frame →
      outer (leave later).frame = outer context.frame) :
    ReturnsAt outer (Run.restoring (do modify enter; step) leave)
      (Run.restoring (do modify enter; other) leave) context where
  frame := by
    rw [Run.after_restoring, Run.after_modify_bind]
    exact back _ inner.frame
  calm := by
    rw [Run.after_restoring, Run.after_modify_bind, leaving]
    exact inner.calm
  alike := by
    rw [Run.restoring_apply, Run.restoring_apply, Run.bind_of_ok (Run.modify_apply enter context),
      Run.bind_of_ok (Run.modify_apply enter context), inner.alike]

end ReturnsAt

namespace Returns

variable {step other : Run Unit} {view : Frame → Frame}

/-- **A property is left** with the path that led to the bean, whatever mark stands on the leaf. -/
theorem onProperty (name : String) (inner : Returns Frame.unmarked step other) :
    Returns Frame.unnamed (Run.onProperty name step) (Run.onProperty name other) := by
  refine fun context calm => ReturnsAt.within (inner _ calm) (fun _ => rfl) fun later same => ?_
  have marked : later.path.markLeaf .plain = (context.path.add name).markLeaf .plain :=
    congrArg Frame.path same
  have parent : later.path.removeLeaf = context.path :=
    (Path.removeLeaf_of_markLeaf marked).trans (Path.removeLeaf_add context.path name)
  have bean : later.bean = context.bean := congrArg Frame.bean same
  have metadata : later.metadata = context.metadata := congrArg Frame.metadata same
  have group : later.group = context.group := congrArg Frame.group same
  have isolated : later.isolated = context.isolated := congrArg Frame.isolated same
  simp only [Context.frame, Frame.unnamed, parent, bean, metadata, group, isolated]

/-- **A bean is left** for the one before and its property. -/
theorem onBean (bean : Value) (metadata : MetaBean) (inner : Returns Frame.unnamed step other) :
    Returns view (Run.onBean bean metadata step) (Run.onBean bean metadata other) := by
  refine getAt fun context calm => ReturnsAt.within (inner _ calm) (fun _ => rfl)
    fun later same => congrArg view ?_
  have group : later.group = context.group := congrArg Frame.group same
  have path : later.path = context.path := congrArg Frame.path same
  have isolated : later.isolated = context.isolated := congrArg Frame.isolated same
  simp only [Context.frame, group, path, isolated]

theorem reports (inner : Returns view step other) :
    Returns view (Engine.reports step) (Engine.reports other) :=
  get fun _ => bind inner fun _ => get fun _ => pure _

theorem runSequence {prepare : TypeKey → Run Unit}
    (prepares : ∀ group, Returns view (prepare group) (prepare group))
    (inner : Returns view step other) (groups : List TypeKey) :
    Returns view (Engine.runSequence prepare step groups)
      (Engine.runSequence prepare other groups) := by
  induction groups with
  | nil => exact pure ()
  | cons group rest ih =>
    exact bind (prepares group) fun _ => bind (reports inner) fun _ => branch (pure ()) ih

/-- **The groups of a redefined default sequence are left** for the default group. -/
theorem withDefaultSequence (metadata : MetaBean) (inner : Returns Frame.unnamed step other) :
    Returns Frame.unnamed (Engine.withDefaultSequence metadata step)
      (Engine.withDefaultSequence metadata other) := by
  unfold Engine.withDefaultSequence
  cases metadata.groupSequence with
  | none => exact inner
  | some sequence =>
    refine getAt fun context calm => ?_
    by_cases isDefault : context.group = .defaultGroup
    · rw [if_pos isDefault, if_pos isDefault]
      have switches : ∀ group, Returns (Frame.ungrouped ∘ Frame.unnamed) (Engine.setGroup group)
          (Engine.setGroup group) := fun _ => modify (fun _ => rfl) fun _ => rfl
      have steps : Returns (Frame.ungrouped ∘ Frame.unnamed) step other :=
        inner.coarsen fun _ _ same => congrArg Frame.ungrouped same
      refine ReturnsAt.restoring (runSequence switches steps sequence context calm) (fun _ => rfl)
        fun later same => ?_
      calc (Engine.backToDefault later).frame.unnamed
        _ = later.frame.unnamed.ungrouped := rfl
        _ = context.frame.unnamed.ungrouped := same
        _ = context.frame.unnamed := by
          simp only [Frame.ungrouped, Frame.unnamed, Context.frame, isDefault]
    · rw [if_neg isDefault, if_neg isDefault]
      exact inner context calm

/-- Passes end in the default group, and may leave a mark on the leaf. -/
theorem forEachGroup (groups : Groups) (inner : Returns Frame.unmarked step other) :
    Returns (Frame.ungrouped ∘ Frame.unmarked) (Engine.forEachGroup groups step)
      (Engine.forEachGroup groups other) := by
  have starts : ∀ group, Returns (Frame.ungrouped ∘ Frame.unmarked) (Engine.startPass group)
      (Engine.startPass group) := fun _ => modify (fun _ => rfl) fun _ => rfl
  have steps : Returns (Frame.ungrouped ∘ Frame.unmarked) step other :=
    inner.coarsen fun _ _ same => congrArg Frame.ungrouped same
  have passes := bind (forEach (fun group => bind (starts group) fun _ => steps) groups.plain)
    fun _ => forEach (fun sequence => runSequence starts steps sequence) groups.sequences
  exact fun context calm => ReturnsAt.restoring (passes context calm) (fun _ => rfl)
    fun _ same => same

/-! ### From bean to bean -/

section Cascades

variable (environment : Environment) {visit standIn : Value → MetaBean → Run Unit}
  (visits : ∀ bean metadata, Returns id (visit bean metadata) (standIn bean metadata))

include visits

theorem validateElement (target : CascadeTarget) (element : Value) :
    Returns id (Engine.validateElement environment visit target element)
      (Engine.validateElement environment standIn target element) :=
  branch (bind (metadataOf _) fun metadata => visits element metadata) (pure ())

/-- Elements leave the mark of the last one. -/
theorem validateElements (target : CascadeTarget) (elements : List (Path.Mark × Value)) :
    Returns Frame.unmarked (Engine.validateElements environment visit target elements)
      (Engine.validateElements environment standIn target elements) := by
  induction elements with
  | nil => exact pure ()
  | cons head rest ih =>
    obtain ⟨mark, element⟩ := head
    have marking : Returns Frame.unmarked (Engine.markLeaf mark) (Engine.markLeaf mark) :=
      modify (fun _ => rfl) fun _ => rfl
    unfold Engine.validateElements
    refine branch (bind (pure ()) fun _ => ih) (bind marking fun _ => ?_)
    exact bind (validateElement environment visits target element).whole fun _ => ih

theorem validateValue (target : CascadeTarget) (value : Value) :
    Returns Frame.unmarked (Engine.validateValue environment visit target value)
      (Engine.validateValue environment standIn target value) := by
  have marking : Returns Frame.unmarked (Engine.markLeaf .plain) (Engine.markLeaf .plain) :=
    modify (fun _ => rfl) fun _ => rfl
  unfold Engine.validateValue
  refine branch (pure ()) ?_
  cases Engine.elements? environment value with
  | some elements => exact bind (validateElements environment visits target elements) fun _ => marking
  | none => exact (validateElement environment visits target value).whole

theorem validateCascades (metadata : MetaBean) :
    Returns Frame.unnamed (Engine.validateCascades environment visit metadata)
      (Engine.validateCascades environment standIn metadata) := by
  refine forEach (fun property => ?_) _
  cases property.cascade with
  | none => exact pure ()
  | some target =>
    exact onProperty property.name (forEach (fun access =>
      bind (isTraversable environment access) fun _ =>
        branch (bind (propertyValue environment access) fun value =>
          validateValue environment visits target value) (pure ())) _)

theorem passBy (root : Value) (metadata : Option MetaBean) :
    Returns Frame.unmarked (Engine.passBy environment visit root metadata)
      (Engine.passBy environment standIn root metadata) := by
  cases metadata with
  | some metadata => exact (visits root metadata).whole
  | none => exact validateValue environment visits .dynamic root

/-- **A visit comes back**, if those below it do. -/
theorem validateBeanOver (levels : Nat) (bean : Value) (metadata : MetaBean) :
    Returns id (Engine.validateBeanOver environment visit levels bean metadata)
      (Engine.validateBeanOver environment standIn levels bean metadata) := by
  induction levels generalizing bean metadata with
  | zero => exact visits bean metadata
  | succ levels ih =>
    have own : Returns Frame.unnamed (Engine.validateOwn environment metadata)
        (Engine.validateOwn environment metadata) := by
      refine bind (forEach (fun property => branch (pure ()) ?_) _)
        fun _ => validateConstraints environment _ _ _ _
      exact onProperty property.name (validateConstraints environment _ _ _ _)
    have inside := bind (withDefaultSequence metadata own)
      fun _ => validateCascades environment ih metadata
    have entering := @get Unit id _ _ fun context =>
      bind (record (.entered bean metadata context.path)) fun _ => onBean bean metadata inside
    unfold Engine.validateBeanOver
    cases bean.bean? with
    | none => exact bind (pure true) fun _ => branch (pure ()) entering
    | some ref => exact bind (markVisited ref) fun _ => branch (pure ()) entering

end Cascades

/-- **A visit comes back to the whole frame.** -/
theorem validateBean (environment : Environment) (fuel : Nat) (bean : Value)
    (metadata : MetaBean) :
    Returns id (Engine.validateBean environment fuel bean metadata)
      (Engine.validateBean environment fuel bean metadata) := by
  rw [validateBean_eq_over]
  exact validateBeanOver environment (fun _ _ => pure ()) fuel bean metadata

end Returns

/-! ### Visits -/

section Visits

variable (environment : Environment) (fuel : Nat)

/-- Some levels over some more are as many together. -/
theorem validateBeanOver_validateBean (levels : Nat) :
    Engine.validateBeanOver environment (Engine.validateBean environment fuel) levels
      = Engine.validateBean environment (levels + fuel) := by
  induction levels with
  | zero => rw [Nat.zero_add]; rfl
  | succ levels ih =>
    rw [Nat.add_right_comm]
    exact congrArg (fun below => Engine.validateBeanOver environment below 1) ih

variable {context later : Context}

/-- What succeeds takes the mark of its last element off the leaf. -/
theorem frame_of_validateValue (calm : context.isolated = []) {target : CascadeTarget}
    {value : Value} (plain : context.path.leaf.mark = .plain)
    (ok : Engine.validateValue environment (Engine.validateBean environment fuel) target value context
      = .ok () later) : later.frame = context.frame := by
  have unmarked : context.frame.unmarked = context.frame := by
    have same : context.path.markLeaf .plain = context.path := plain ▸ context.path.markLeaf_mark
    simp only [Context.frame, Frame.unmarked, same]
  have visits := Returns.validateBean environment fuel
  unfold Engine.validateValue at ok
  by_cases isNull : value.isNull = true
  · rw [if_pos isNull] at ok
    cases ok
    rfl
  · rw [if_neg isNull] at ok
    generalize Engine.elements? environment value = elements at ok
    cases elements with
    | some elements =>
      have returns := Returns.validateElements environment visits target elements context calm
      cases ran : Engine.validateElements environment (Engine.validateBean environment fuel) target
          elements context with
      | ok _ middle =>
        have returned := returns.frame
        rw [Run.after_of_ok ran] at returned
        cases (Run.bind_of_ok ran).symm.trans ok
        exact returned.trans unmarked
      | error error middle => cases (Run.bind_of_error ran).symm.trans ok
    | none =>
      have returns := Returns.validateElement environment visits target value context calm
      rw [← Run.after_of_ok ok]
      exact returns.frame

/-- **Visits come back to where they started.**  Whether it succeeds or fails, a visit leaves the
bean, its metadata, the property, the group, the path and the composites under evaluation as they
were, and so does a value that is gone through with success from a leaf without a mark.  This is
so at all visits of a call, for it makes them where no composite is under evaluation: it comes to
the same if, so many levels down, a step stands in for them that does as they do only there. -/
theorem validateBean_returns (calm : context.isolated = []) :
    (∀ bean metadata,
        ((Engine.validateBean environment fuel bean metadata).after context).frame = context.frame)
      ∧ (∀ target value later, context.path.leaf.mark = .plain →
          Engine.validateValue environment (Engine.validateBean environment fuel) target value context
            = .ok () later → later.frame = context.frame)
      ∧ ∀ (visit : Value → MetaBean → Run Unit) (levels : Nat) (root : Value)
          (metadata : Option MetaBean) (groups : Groups),
          levels + fuel = Engine.levels environment root →
            (∀ bean metadata inner, inner.isolated = [] →
              visit bean metadata inner
                = Engine.validateBean environment fuel bean metadata inner) →
              Engine.forEachGroup groups (Engine.passBy environment
                  (Engine.validateBeanOver environment visit levels) root metadata) context
                = Engine.validateGraph environment root metadata groups context := by
  have visits := Returns.validateBean environment fuel
  refine ⟨fun bean metadata => (visits bean metadata context calm).frame,
    fun target value later plain ok => frame_of_validateValue environment fuel calm plain ok, ?_⟩
  intro visit levels root metadata groups deep alike
  have standIn : ∀ bean metadata, Returns id (Engine.validateBean environment fuel bean metadata)
      (visit bean metadata) := fun bean metadata inner isCalm =>
    { visits bean metadata inner isCalm with alike := alike bean metadata inner isCalm }
  have descent := Returns.validateBeanOver environment standIn levels
  have call := Returns.forEachGroup groups (Returns.passBy environment descent root metadata)
  rw [validateBeanOver_validateBean, deep] at call
  exact (call context calm).alike

end Visits

namespace Ring

/-- The links of the first node are under validation. -/
def atLinks : Context :=
  { Context.start validator.cache with
    bean := .bean first, property := some "links", path := .ofProperty "links" }

/-- A step that stands in for visits, but not where a composite is under evaluation. -/
def calmly (environment : Environment) (fuel : Nat) (bean : Value) (metadata : MetaBean) :
    Run Unit := fun context =>
  if context.isolated = [] then Engine.validateBean environment fuel bean metadata context
  else .error (.unknownProperty metadata.type "") context

end Ring

/-- In the ring the links of a node are gone through with success, and all visits are made where no
composite is under evaluation. -/
theorem validateBean_returns_ring :
    let environment := Ring.validator.environment (Ring.heap .null .null)
    let links := Value.list [.bean Ring.second, .null, .bean Ring.first]
    Ring.atLinks.isolated = [] ∧ Ring.atLinks.path.leaf.mark = .plain
      ∧ (∃ later, Engine.validateValue environment (Engine.validateBean environment 11) .dynamic
            links Ring.atLinks = .ok () later ∧ later.frame = Ring.atLinks.frame)
      ∧ ∀ groups, Engine.forEachGroup groups (Engine.passBy environment
            (Engine.validateBeanOver environment (Ring.calmly environment 11) 2) (.bean Ring.first)
            none) Ring.atLinks
          = Engine.validateGraph environment (.bean Ring.first) none groups Ring.atLinks := by
  intro environment links
  have calm : Ring.atLinks.isolated = [] := rfl
  obtain ⟨-, values, visits⟩ := validateBean_returns environment 11 calm
  refine ⟨calm, rfl, ?_, fun groups => ?_⟩
  · have succeeds : (Ring.validator.outcomeAt (Engine.validateValue environment
        (Engine.validateBean environment 11) .dynamic links Ring.atLinks)).failure = none :=
      Option.isNone_iff_eq_none.mp (by decide +kernel)
    cases ran : Engine.validateValue environment (Engine.validateBean environment 11) .dynamic links
        Ring.atLinks with
    | ok _ later => exact ⟨later, rfl, values .dynamic links later rfl ran⟩
    | error error later =>
      rw [ran] at succeeds
      cases succeeds
  · have deep : 2 + 11 = Engine.levels environment (.bean Ring.first) := by decide +kernel
    exact visits _ 2 _ none groups deep fun _ _ _ calm => if_pos calm

end GraphValidation
