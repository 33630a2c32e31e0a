/-
**Two engines go through a graph abreast.**

For two engines to stay abreast it is enough that fetching a value keeps them abreast where it is
done, and that their memories stay related when both do the same: enter a bean, evaluate a
constraint, or find the metadata of a type.

* `Sides.Consulting` — two sides that find the same metadata; `navigate` follows a path.
* `Sides.Evaluating` — two sides that evaluate alike; `validateOwnBy` validates a bean,
  `validateArrivedBy` and `validatePropertyValueBy` a single property.
* `Sides.Lawful` — two sides that enter beans alike as well.
* `Sides.Lawful.validateBeanBy` — **two engines stay abreast**, by induction on the levels.
* `Sides.Lawful.program` — so do the tasks of a call.
-/
import GraphValidation.Proofs.SideBySide

namespace GraphValidation

namespace Sides

/-- Both sides find the same metadata. -/
structure Consulting (sides : Sides) : Prop where
  builds : ∀ {first second}, sides.related first second → ∀ type,
    first.cache.configuration.build type = second.cache.configuration.build type
  consults : ∀ {first second}, sides.related first second → ∀ type,
    sides.related (first.consulting type) (second.consulting type)

namespace Consulting

variable {sides : Sides} (consulting : sides.Consulting) {site : Site}

include consulting

theorem metadataOf (type : TypeKey) :
    sides.Keeps site (Run.metadataOf type) (Run.metadataOf type) where
  goes := {
    grows := fun context _ => by
      cases built : context.cache.configuration.build type with
      | ok metadata =>
        exact ⟨[], (congrArg Context.journal (Run.after_of_ok (metadataOf_of_ok built))).symm⟩
      | error error =>
        exact ⟨[], (congrArg Context.journal (Run.after_of_error (metadataOf_of_error built))).symm⟩
    arrives := fun context a later here ok => by
      cases built : context.cache.configuration.build type with
      | ok metadata =>
        rw [metadataOf_of_ok built] at ok
        cases ok
        exact here
      | error error =>
        rw [metadataOf_of_error built] at ok
        cases ok }
  abreast context first second _ related _ := by
    have same := consulting.builds related type
    have consulted := consulting.consults related type
    cases built : first.cache.configuration.build type with
    | ok metadata =>
      have ran : Run.metadataOf type (context.recalling first) = .ok metadata _ :=
        metadataOf_of_ok built
      have likewise : Run.metadataOf type (context.recalling second) = .ok metadata _ :=
        metadataOf_of_ok (same.symm.trans built)
      rw [ran, likewise]
      exact .ok metadata context consulted
    | error error =>
      have ran : Run.metadataOf type (context.recalling first) = .error (.config error) _ :=
        metadataOf_of_error built
      have likewise : Run.metadataOf type (context.recalling second) = .error (.config error) _ :=
        metadataOf_of_error (same.symm.trans built)
      rw [ran, likewise]
      exact .error (.config error) context consulted

/-- Following a path fetches nothing. -/
theorem navigate (reads : sides.NotesReads) (bean : Value) (metadata : MetaBean) (walked : Path)
    (nodes : List Path.Node) :
    sides.Keeps site (Engine.navigate sides.setting.environment bean metadata walked nodes)
      (Engine.navigate sides.setting.environment bean metadata walked nodes) := by
  induction nodes generalizing bean metadata walked with
  | nil => exact nothing _
  | cons node rest ih =>
    refine .bind (namedProperty metadata node) fun property => ?_
    refine .bind (stepInto reads _ node property bean) fun reached => ?_
    cases reached with
    | none => exact nothing none
    | some value =>
      dsimp only
      split
      · exact nothing none
      · exact .bind (consulting.metadataOf _) fun metadata => ih value metadata _

end Consulting

/-- What is asked of two sides that evaluate the constraints of a bean. -/
structure Evaluating (sides : Sides) : Prop extends sides.Consulting where
  /-- Both may note the same evaluations. -/
  evaluates : ∀ {first second}, sides.related first second →
    ∀ bean path group (places : List NodePlace), sides.related
      (first.noting (places.map (Event.evaluated bean path group)))
      (second.noting (places.map (Event.evaluated bean path group)))
  goes : ∀ access site,
    Goes (fun here => here = site) (fun here => here = site) (sides.first access)
  /-- Both fetch the same values. -/
  fetches : ∀ access site, sides.asked site →
    sides.Keeps site (sides.first access) (sides.second access)

namespace Evaluating

variable {sides : Sides} (evaluating : sides.Evaluating) {site : Site}

include evaluating

theorem evaluate (place : NodePlace) (value : Value) (node : ConstraintNode) :
    sides.Keeps site (Engine.evaluate sides.setting.environment place value node)
      (Engine.evaluate sides.setting.environment place value node) where
  goes := {
    grows := fun context _ => by
      rw [Run.after_evaluate]
      exact List.suffix_append _ _
    arrives := fun context a later here ok => by
      rw [Engine.evaluate_apply] at ok
      unfold Context.concluding at ok
      split at ok
      · cases ok
        exact here
      · cases ok }
  abreast context first second _ related _ := by
    rw [Engine.evaluate_apply, Engine.evaluate_apply, Context.site_recalling,
      Context.site_recalling]
    generalize judge sides.setting.environment context.site place value node = findings
    have noted := evaluating.evaluates related context.bean context.path context.group
      findings.places.reverse
    rw [List.map_reverse] at noted
    unfold Context.concluding
    cases findings.failure with
    | none => exact .ok () (context.noting findings) noted
    | some error => exact .error error (context.noting findings) noted

theorem withFetched {step other : Value → Run Unit} (access : Access) (asked : sides.asked site)
    (inner : ∀ value, sides.Keeps site (step value) (other value)) :
    sides.Keeps site (Run.withFetched sides.first access step)
      (Run.withFetched sides.second access other) := by
  refine .bind (evaluating.fetches access site asked) fun fetched => ?_
  cases fetched with
  | none => exact nothing ()
  | some value => exact inner value

/-! ### The constraints of a bean -/

theorem validateConstraintBy (place : NodePlace) (node : ConstraintNode)
    (asks : node.content.access.isSome → sides.asked site) :
    sides.Keeps site (Engine.validateConstraintBy sides.setting.environment sides.first place node)
      (Engine.validateConstraintBy sides.setting.environment sides.second place node) := by
  refine .get (fun _ _ => rfl) (fun _ _ => rfl) fun context _ => ?_
  split
  · exact nothing ()
  · refine .bind (markProcessed place) fun isNew => ?_
    cases isNew with
    | false => exact nothing ()
    | true =>
      cases way : node.content.access with
      | none => exact evaluating.evaluate place context.bean node
      | some access =>
        exact evaluating.withFetched access (asks (by rw [way]; rfl))
          fun value => evaluating.evaluate place value node

theorem validateConstraintsBy (type : TypeKey) (property : Option String) (index : Nat)
    (nodes : List ConstraintNode)
    (asks : ∀ node ∈ nodes, node.content.access.isSome → sides.asked site) :
    sides.Keeps site
      (Engine.validateConstraintsBy sides.setting.environment sides.first type property index nodes)
      (Engine.validateConstraintsBy sides.setting.environment sides.second type property index
        nodes) := by
  induction nodes generalizing index with
  | nil => exact nothing ()
  | cons node rest ih =>
    refine .bind (evaluating.validateConstraintBy _ node (asks node List.mem_cons_self)) fun _ => ?_
    exact ih (index + 1) fun node member => asks node (List.mem_cons_of_mem _ member)

/-- The constraints of a bean ask at its properties, or where its own ones ask. -/
theorem validateOwnBy {stop : Stop} (asks : sides.setting.AsksWithin sides.asked stop) :
    sides.Keeps (sides.setting.site stop none)
      (Engine.validateOwnBy sides.setting.environment sides.first stop.metadata)
      (Engine.validateOwnBy sides.setting.environment sides.second stop.metadata) := by
  refine .bind (.forEach fun property _ => ?_) fun _ => ?_
  · split
    · exact nothing ()
    · exact onProperty property.name rfl
        (evaluating.validateConstraintsBy stop.metadata.type _ 0 property.constraints
          fun _ _ _ => asks.1 property.name)
  · exact evaluating.validateConstraintsBy stop.metadata.type none 0 stop.metadata.constraints
      asks.2

/-! ### Single properties -/

theorem validateOnePropertyBy (metadata : MetaBean) (property : MetaProperty) (groups : Groups)
    (outside : site.property = none) (asked : sides.asked (site.below property.name)) :
    sides.Keeps site
      (Engine.validateOnePropertyBy sides.setting.environment sides.first metadata property groups)
      (Engine.validateOnePropertyBy sides.setting.environment sides.second metadata property
        groups) :=
  onProperty property.name outside (forEachGroup groups (withDefaultSequence metadata
    (evaluating.validateConstraintsBy metadata.type _ 0 property.constraints fun _ _ _ => asked)))

theorem validatePropertyValueBy (metadata : MetaBean) (name : String) (value : Value)
    (groups : Groups)
    (asks : ∀ name, sides.asked (Site.below ⟨site.rootType, .null, site.path, none⟩ name)) :
    sides.Keeps site
      (Engine.validatePropertyValueBy sides.setting.environment sides.first metadata name value
        groups)
      (Engine.validatePropertyValueBy sides.setting.environment sides.second metadata name value
        groups) := by
  unfold Engine.validatePropertyValueBy
  cases metadata.property? name with
  | none => exact .throw _
  | some property =>
    have inner := onBean .null metadata
      (evaluating.validateOnePropertyBy metadata property groups rfl (asks property.name))
    exact .restoring (.bind (.modify _ (fun _ _ => rfl) fun _ here => here) fun _ => inner)
      (fun _ _ => rfl) fun _ here => here

/-- The property that has been navigated to is validated at the end of the way. -/
theorem validateArrivedBy (node : Path.Node) (groups : Groups)
    (arrived : Option (Value × MetaBean × Path))
    (asks : ∀ bean metadata walked, arrived = some (bean, metadata, walked) → ∀ name,
      sides.asked (Site.below ⟨site.rootType, bean, walked, none⟩ name)) :
    sides.Leads (fun here => here = site) (fun _ => True)
      (Engine.validateArrivedBy sides.setting.environment sides.first node groups arrived)
      (Engine.validateArrivedBy sides.setting.environment sides.second node groups arrived) := by
  cases arrived with
  | none => exact .pure () fun _ _ => trivial
  | some arrived =>
    obtain ⟨bean, metadata, walked⟩ := arrived
    have walks : sides.Leads (fun here => here = site)
        (fun here => here = ⟨site.rootType, site.bean, walked, site.property⟩)
        (modify fun context => { context with path := walked } : Run PUnit)
        (modify fun context => { context with path := walked } : Run PUnit) :=
      .modify _ (fun _ _ => rfl) fun context here => by
        subst here
        rfl
    refine .bind (namedProperty metadata node) fun property => .bind walks fun _ => ?_
    have inner := evaluating.validateOnePropertyBy metadata property groups rfl
      (asks bean metadata walked rfl property.name)
    exact (onBean bean metadata inner).weaken (fun _ same => same) fun _ _ => trivial

end Evaluating

/-- What is asked of two sides. -/
structure Lawful (sides : Sides) : Prop extends sides.Evaluating where
  /-- Both may note that they enter the same bean. -/
  enters : ∀ {first second}, sides.related first second → ∀ bean metadata path,
    sides.related (first.noting [.entered bean metadata path])
      (second.noting [.entered bean metadata path])

namespace Lawful

variable {sides : Sides} (lawful : sides.Lawful) {site : Site}

include lawful

theorem alone : sides.alone.Lawful where
  builds same type := congrArg (fun memory : Memory => memory.cache.configuration.build type) same
  consults same type := congrArg (fun memory : Memory => memory.consulting type) same
  evaluates same _ _ _ _ := congrArg (fun memory : Memory => memory.noting _) same
  enters same _ _ _ := congrArg (fun memory : Memory => memory.noting _) same
  goes := lawful.goes
  fetches access site _ := leads_alone (lawful.goes access site)

theorem record (bean : Value) (metadata : MetaBean) (path : Path) :
    sides.Keeps site (Run.record (.entered bean metadata path))
      (Run.record (.entered bean metadata path)) where
  goes := {
    grows := fun _ _ => List.suffix_cons _ _
    arrives := fun _ _ _ here ok => by
      cases ok
      exact here }
  abreast context _ _ _ related _ := .ok () context (lawful.enters related bean metadata path)

/-! ### From a bean to the next ones -/

section Cascades

variable {visit other : Value → MetaBean → Run Unit}
  (visits : ∀ bean metadata site, site.rootType = sides.setting.rootType →
    sides.Keeps site (visit bean metadata) (other bean metadata))

include visits

theorem validateElement (ofRoot : site.rootType = sides.setting.rootType)
    (target : CascadeTarget) (element : Value) :
    sides.Keeps site
      (Engine.validateElement sides.setting.environment visit target element)
      (Engine.validateElement sides.setting.environment other target element) := by
  unfold Engine.validateElement
  split
  · exact .bind (lawful.metadataOf _) fun metadata => visits element metadata site ofRoot
  · exact nothing ()

/-- Elements are validated at their marks; the mark of the last one stays on the leaf. -/
theorem validateElements (ofRoot : site.rootType = sides.setting.rootType)
    (target : CascadeTarget) (elements : List (Path.Mark × Value)) :
    sides.Leads (fun here => ∃ mark, here = site.marked mark)
      (fun here => ∃ mark, here = site.marked mark)
      (Engine.validateElements sides.setting.environment visit target elements)
      (Engine.validateElements sides.setting.environment other target elements) := by
  induction elements with
  | nil => exact .pure () fun _ marked => marked
  | cons head rest ih =>
    obtain ⟨mark, element⟩ := head
    unfold Engine.validateElements
    by_cases null : element.isNull
    · simp only [if_pos null]
      exact .bind (.pure () fun _ marked => marked) fun _ => ih
    · simp only [if_neg null]
      have marking : sides.Leads (fun here => ∃ mark, here = site.marked mark)
          (fun here => here = site.marked mark) (Engine.markLeaf mark) (Engine.markLeaf mark) := by
        refine .modify _ (fun _ _ => rfl) ?_
        rintro context ⟨before, here⟩
        exact Context.site_remarked mark here
      have there : (site.marked mark).rootType = sides.setting.rootType := ofRoot
      refine .bind marking fun _ =>
        .bind (lawful.validateElement visits there target element) fun _ => ?_
      exact ih.weaken (fun _ here => ⟨mark, here⟩) fun _ marked => marked

theorem validateValue (ofRoot : site.rootType = sides.setting.rootType)
    (target : CascadeTarget) (value : Value) (plain : site.path.leaf.mark = .plain) :
    sides.Keeps site (Engine.validateValue sides.setting.environment visit target value)
      (Engine.validateValue sides.setting.environment other target value) := by
  have unmarked : site.marked .plain = site := by
    have same : site.path.markLeaf .plain = site.path := by
      rw [← plain]
      rfl
    rw [Site.marked, same]
  unfold Engine.validateValue
  split
  · exact nothing ()
  · cases Engine.elements? sides.setting.environment value with
    | none => exact lawful.validateElement visits ofRoot target value
    | some elements =>
      have going := (lawful.validateElements visits ofRoot target elements).weaken
        (fun here (same : here = site) => ⟨.plain, same.trans unmarked.symm⟩) fun _ marked => marked
      refine .bind going fun _ => .modify _ (fun _ _ => rfl) ?_
      rintro context ⟨mark, here⟩
      rw [← unmarked]
      exact Context.site_remarked .plain here

theorem validateCascadesBy {stop : Stop} (asks : sides.setting.AsksWithin sides.asked stop) :
    sides.Keeps (sides.setting.site stop none)
      (Engine.validateCascadesBy sides.setting.environment sides.first visit stop.metadata)
      (Engine.validateCascadesBy sides.setting.environment sides.second other stop.metadata) := by
  refine .forEach fun property _ => ?_
  cases property.cascade with
  | none => exact nothing ()
  | some target =>
    refine onProperty property.name rfl (.forEach fun access _ => ?_)
    have plain : (sides.setting.site stop (some property.name)).path.leaf.mark = .plain := by
      simp [Setting.site, Path.add, Path.Node.named]
    exact lawful.withFetched access (asks.1 property.name)
      fun value => lawful.validateValue visits rfl target value plain

/-- What is done on a bean that is entered. -/
theorem stayBy (stop : Stop) (asks : sides.setting.AsksWithin sides.asked stop)
    (ofRoot : site.rootType = sides.setting.rootType) (here : site.path = stop.path) :
    sides.Keeps site
      (Run.onBean stop.bean stop.metadata do
        Engine.withDefaultSequence stop.metadata
          (Engine.validateOwnBy sides.setting.environment sides.first stop.metadata)
        Engine.validateCascadesBy sides.setting.environment sides.first visit stop.metadata)
      (Run.onBean stop.bean stop.metadata do
        Engine.withDefaultSequence stop.metadata
          (Engine.validateOwnBy sides.setting.environment sides.second stop.metadata)
        Engine.validateCascadesBy sides.setting.environment sides.second other stop.metadata) := by
  refine onBean stop.bean stop.metadata ?_
  rw [ofRoot, here]
  exact .bind (withDefaultSequence stop.metadata (lawful.validateOwnBy asks))
    fun _ => lawful.validateCascadesBy visits asks

/-- A bean is entered; where the first journal enters it, the questions may be asked that it
asks. -/
theorem enterBy (ofRoot : site.rootType = sides.setting.rootType) (bean : Value)
    (metadata : MetaBean) :
    sides.Keeps site
      (Engine.enterBy sides.setting.environment sides.first visit bean metadata)
      (Engine.enterBy sides.setting.environment sides.second other bean metadata) := by
  have goesAlone : ∀ bean metadata site, site.rootType = sides.setting.rootType →
      sides.alone.Keeps site (visit bean metadata) (visit bean metadata) :=
    fun bean metadata site ofRoot => leads_alone (visits bean metadata site ofRoot).goes
  refine .get (fun _ _ => rfl) (fun _ _ => rfl) fun context here => ?_
  have path : site.path = context.path := (congrArg Site.path here).symm
  have arrival : sides.Keeps site (Run.record (.entered bean metadata context.path)) _ :=
    lawful.record bean metadata context.path
  have goes := (lawful.alone.stayBy goesAlone ⟨bean, metadata, context.path⟩
    ⟨fun _ => trivial, fun _ _ _ => trivial⟩ ofRoot path).goes
  refine ⟨.bind arrival.goes fun _ => goes, fun running first second there related encloses => ?_⟩
  have grown := goes.grows
    (running.recalling (first.noting [.entered bean metadata context.path])) there
  have asks := encloses bean metadata context.path (grown.mem List.mem_cons_self)
  exact (Leads.bind arrival fun _ => lawful.stayBy visits ⟨bean, metadata, context.path⟩ asks ofRoot
    path).abreast running first second there related encloses

end Cascades

/-- **Two engines stay abreast at a bean and at all that is reached from it**, by induction on the
levels. -/
theorem validateBeanBy (levels : Nat) (bean : Value) (metadata : MetaBean) (site : Site)
    (ofRoot : site.rootType = sides.setting.rootType) :
    sides.Keeps site
      (Engine.validateBeanBy sides.setting.environment sides.first levels bean metadata)
      (Engine.validateBeanBy sides.setting.environment sides.second levels bean metadata) := by
  induction levels generalizing bean metadata site with
  | zero => exact nothing ()
  | succ levels ih =>
    have entering := lawful.enterBy ih ofRoot bean metadata
    have going : ∀ isNew : Bool, sides.Keeps site
        (if !isNew then pure () else Engine.enterBy sides.setting.environment sides.first
          (Engine.validateBeanBy sides.setting.environment sides.first levels) bean metadata)
        (if !isNew then pure () else Engine.enterBy sides.setting.environment sides.second
          (Engine.validateBeanBy sides.setting.environment sides.second levels) bean metadata) :=
      fun isNew => match isNew with
      | true => entering
      | false => nothing ()
    unfold Engine.validateBeanBy
    split
    · exact .bind (markVisited _) going
    · exact .bind (nothing true) going

/-! ### Tasks -/

theorem validateGraphBy (root : Value) (metadata : Option MetaBean) (groups : Groups)
    (ofRoot : site.rootType = sides.setting.rootType) (plain : site.path.leaf.mark = .plain) :
    sides.Keeps site
      (Engine.validateGraphBy sides.setting.environment sides.first root metadata groups)
      (Engine.validateGraphBy sides.setting.environment sides.second root metadata groups) := by
  have visits := lawful.validateBeanBy (Engine.levels sides.setting.environment root)
  refine forEachGroup groups ?_
  cases metadata with
  | some metadata => exact visits root metadata site ofRoot
  | none => exact lawful.validateValue visits ofRoot .dynamic root plain

/-- **Two engines stay abreast in a task**, where values may be fetched everywhere. -/
theorem program (reads : sides.NotesReads) (everywhere : ∀ site, sides.asked site) (task : Task)
    (ofRoot : site.rootType = sides.setting.rootType) (plain : site.path.leaf.mark = .plain) :
    sides.Leads (fun here => here = site) (fun _ => True)
      (task.program sides.setting.environment sides.first)
      (task.program sides.setting.environment sides.second) := by
  cases task with
  | graph root metadata groups =>
    exact (lawful.validateGraphBy root metadata groups ofRoot plain).weaken (fun _ same => same)
      fun _ _ => trivial
  | property root metadata path groups =>
    exact .bind (lawful.navigate reads root metadata .root path.above.reverse) fun arrived =>
      lawful.validateArrivedBy path.leaf groups arrived fun _ _ _ _ _ => everywhere _
  | value metadata name given groups =>
    exact (lawful.validatePropertyValueBy metadata name given groups fun _ => everywhere _).weaken
      (fun _ same => same) fun _ _ => trivial

end Lawful

end Sides

end GraphValidation
