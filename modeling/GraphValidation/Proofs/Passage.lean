/-
**A pass follows its itinerary.**

A pass goes from bean to bean by recursion; its itinerary lists the stops beforehand.  A step follows
a list of starts when it does at the stops below them what the survey does, and comes to the beans
that the survey comes to.

* `Setting.Follows` — following a list of starts, `bind` and `forEach` for lists of starts.
* `validateValue_follows`, `validateCascades_follows` — from one bean to the next ones.
* `validateBeanOver_follows` — **validating a bean follows the tour from it**, whatever is done below
  the levels of either, by induction on the levels.
* `passes_track` — the passes of a call track `Setting.call` over the stops that they come to.
-/
import GraphValidation.Proofs.AtStop

namespace GraphValidation

/-! ### Following a list of starts -/

namespace Setting

variable (setting : Setting) (asked : Site → Prop)

/-- A context that stands at a cursor, whatever beans the pass has come to. -/
def Staying (cursor : Cursor) (context : Context) : Prop :=
  context.Stands setting asked ∧ context.cursor = { cursor with visited := context.visited }

/-- From every context that is `kept`, a step does at the stops below its starts what the survey
does there, and keeps what it found but for the beans that the pass has come to. -/
def Follows (tour : Tour) (group : TypeKey) (kept : Context → Prop) (step : Run Unit)
    (starts : List (Except ValidationError Stop)) : Prop :=
  ∀ context, kept context →
    (∀ stop, .ok stop ∈ (walk tour context.visited starts).2 → setting.AsksWithin asked stop) →
      Tracks step context
        (Entry.each (setting.visit group) (walk tour context.visited starts).2)
        fun _ later => kept later ∧ later.visited = (walk tour context.visited starts).1

/-- A way of visiting beans that follows a tour from every bean. -/
def Conducts (visit : Value → MetaBean → Run Unit) (tour : Tour) : Prop :=
  ∀ (stop : Stop) (cursor : Cursor), cursor.path = stop.path →
    setting.Follows asked tour cursor.group (setting.Staying asked cursor)
      (visit stop.bean stop.metadata) [.ok stop]

end Setting

section Passage

variable {setting : Setting} {asked : Site → Prop} {tour : Tour} {group : TypeKey}
  {kept : Context → Prop}

namespace Setting

/-- A step that stays at a cursor comes to no bean. -/
theorem Staying.step {cursor : Cursor} {context later : Context}
    (staying : setting.Staying asked cursor context) (stands : later.Stands setting asked)
    (same : later.cursor = context.cursor) : setting.Staying asked cursor later :=
  ⟨stands, by
    have visited : later.visited = context.visited := congrArg Cursor.visited same
    rw [same, staying.2, visited]⟩

namespace Follows

theorem nothing : setting.Follows asked tour group kept (pure ()) [] :=
  fun _ holds _ => Tracks.of_ok rfl rfl ⟨holds, rfl⟩

theorem bind {first second : Run Unit} {starts others : List (Except ValidationError Stop)}
    (leading : setting.Follows asked tour group kept first starts)
    (following : setting.Follows asked tour group kept second others) :
    setting.Follows asked tour group kept (do first; second) (starts ++ others) := by
  intro context holds asks
  rw [walk_append] at asks ⊢
  rw [Entry.each_append]
  refine Tracks.bind (leading context holds fun stop member =>
    asks stop (List.mem_append_left _ member)) ?_
  rintro _ middle ⟨holds, visited⟩
  rw [← visited] at asks ⊢
  exact following middle holds fun stop member => asks stop (List.mem_append_right _ member)

/-- A step for each element of a list follows what starts from the elements. -/
theorem forEach {α : Type} {step : α → Run Unit} {starts : α → List (Except ValidationError Stop)}
    (items : List α)
    (follows : ∀ item ∈ items, setting.Follows asked tour group kept (step item) (starts item)) :
    setting.Follows asked tour group kept (Run.forEach step items) (items.flatMap starts) := by
  induction items with
  | nil => exact nothing
  | cons item rest ih =>
    rw [List.flatMap_cons]
    exact bind (follows item List.mem_cons_self)
      (ih fun other member => follows other (List.mem_cons_of_mem _ member))

end Follows

end Setting

/-! ### From a bean to the next ones -/

section Cascades

variable {visit : Value → MetaBean → Run Unit}

open Setting

/-- The metadata of an element is that of the survey. -/
theorem validateElement_follows (conducts : setting.Conducts asked visit tour) (cursor : Cursor)
    (target : CascadeTarget) (element : Value) :
    setting.Follows asked tour cursor.group (setting.Staying asked cursor)
      (Engine.validateElement setting.environment visit target element)
      (setting.sight target cursor.path element) := by
  unfold Engine.validateElement Setting.sight Setting.stopAt
  cases Engine.isBeanLike setting.environment element with
  | false => exact Follows.nothing
  | true =>
    intro context staying asks
    have finding := metadataOf_tracks staying.1 (targetType target element)
    cases known : setting.metadata (targetType target element) with
    | error error =>
      rw [known] at finding
      simp only [known] at asks ⊢
      exact Tracks.bind_of_error finding
    | ok metadata =>
      rw [known] at finding
      simp only [known] at asks ⊢
      refine Tracks.bind_of_ok finding ?_
      rintro middle ⟨stands, same⟩
      have visited : middle.visited = context.visited := congrArg Cursor.visited same
      rw [← visited] at asks ⊢
      exact conducts ⟨element, metadata, cursor.path⟩ cursor rfl middle (staying.step stands same) asks

theorem markLeaf_tracks {cursor : Cursor} {mark : Path.Mark} {context : Context}
    (again : Path.Mark)
    (staying : setting.Staying asked { cursor with path := cursor.path.markLeaf mark } context) :
    Tracks (Engine.markLeaf again) context (pure ()) fun _ later =>
      setting.Staying asked { cursor with path := cursor.path.markLeaf again } later
        ∧ later.visited = context.visited := by
  refine Tracks.of_ok (Run.modify_apply _ context) rfl ⟨⟨{ staying.1 with }, ?_⟩, rfl⟩
  have path : context.path = cursor.path.markLeaf mark := congrArg Cursor.path staying.2
  have others := staying.2
  simp only [Context.cursor, Cursor.mk.injEq] at others ⊢
  obtain ⟨bean, metadata, property, -, group, -⟩ := others
  exact ⟨bean, metadata, property, by rw [path]; rfl, group, trivial⟩

/-- A context that stands at a cursor up to the mark of the leaf. -/
def Setting.Marking (setting : Setting) (asked : Site → Prop) (cursor : Cursor)
    (context : Context) : Prop :=
  ∃ mark, setting.Staying asked { cursor with path := cursor.path.markLeaf mark } context

/-- Elements are validated at their marks, whatever mark was left on the leaf. -/
theorem validateElements_follows (conducts : setting.Conducts asked visit tour) (cursor : Cursor)
    (target : CascadeTarget) (elements : List (Path.Mark × Value)) :
    setting.Follows asked tour cursor.group (setting.Marking asked cursor)
      (Engine.validateElements setting.environment visit target elements)
      (elements.flatMap fun element =>
        setting.sight target (cursor.path.markLeaf element.1) element.2) := by
  induction elements with
  | nil => exact Follows.nothing
  | cons head rest ih =>
    obtain ⟨mark, element⟩ := head
    rw [List.flatMap_cons]
    by_cases null : element.isNull
    · have none : setting.sight target (cursor.path.markLeaf mark) element = [] := by
        cases element <;> first | rfl | cases null
      rw [Engine.validateElements, if_pos null, none]
      exact Follows.nothing.bind ih
    · have here : setting.Follows asked tour cursor.group (setting.Marking asked cursor)
          (do
            Engine.markLeaf mark
            Engine.validateElement setting.environment visit target element)
          (setting.sight target (cursor.path.markLeaf mark) element) := by
        rintro context ⟨before, staying⟩ asks
        refine Tracks.bind_of_ok (markLeaf_tracks mark staying) ?_
        rintro middle ⟨stayingMiddle, visited⟩
        rw [← visited] at asks ⊢
        have element := validateElement_follows conducts
          { cursor with path := cursor.path.markLeaf mark } target element middle stayingMiddle asks
        exact element.weaken fun _ later ⟨stayingLater, visitedLater⟩ =>
          ⟨⟨mark, stayingLater⟩, visitedLater⟩
      rw [Engine.validateElements, if_neg null]
      exact here.bind ih

/-- Validating a related value follows what the survey sees there. -/
theorem validateValue_follows (conducts : setting.Conducts asked visit tour) (cursor : Cursor)
    (target : CascadeTarget) (value : Value) (plain : cursor.path.leaf.mark = .plain) :
    setting.Follows asked tour cursor.group (setting.Staying asked cursor)
      (Engine.validateValue setting.environment visit target value)
      (setting.sights target cursor.path value) := by
  have unmarked : cursor.path.markLeaf .plain = cursor.path := by
    rw [← plain]
    rfl
  unfold Engine.validateValue
  by_cases null : value.isNull
  · rw [if_pos null]
    have none : setting.sights target cursor.path value = [] := by
      cases value <;> first | rfl | cases null
    rw [none]
    exact Follows.nothing
  · rw [if_neg null]
    unfold Setting.sights
    cases Engine.elements? setting.environment value with
    | none => exact validateElement_follows conducts cursor target value
    | some elements =>
      intro context staying asks
      have marking : setting.Marking asked cursor context := ⟨.plain, by rw [unmarked]; exact staying⟩
      have tracked := validateElements_follows conducts cursor target elements context marking asks
      refine Tracks.finish tracked ?_
      rintro later ⟨⟨mark, stays⟩, visited⟩
      have restored := markLeaf_tracks .plain stays
      rw [unmarked] at restored
      exact restored.weaken fun _ last ⟨staysLast, visitedLast⟩ =>
        ⟨staysLast, visitedLast.trans visited⟩

/-! ### From a property to the next beans -/

variable {stop : Stop}

/-- The cursor at a property of a stop. -/
def Stop.cursor (stop : Stop) (property : Option String) (group : TypeKey) : Cursor where
  bean := stop.bean
  metadata := some stop.metadata
  property
  path := match property with
    | some name => stop.path.add name
    | none => stop.path
  group
  visited := []

theorem Setting.Staying.site_eq {property : Option String} {context : Context}
    (staying : setting.Staying asked (stop.cursor property group) context) :
    context.site = setting.site stop property := by
  have bean : context.bean = stop.bean := congrArg Cursor.bean staying.2
  have path : context.path = (stop.cursor property group).path := congrArg Cursor.path staying.2
  have named : context.property = property := congrArg Cursor.property staying.2
  rw [Context.site, staying.1.rootType, bean, path, named]
  rfl

/-- An access to a property is followed as far as the resolver allows and the access reads. -/
theorem cascadeAccess_follows (consistent : setting.Consistent asked)
    (conducts : setting.Conducts asked visit tour) (target : CascadeTarget) (access : Access)
    (name : String) (member : asked (setting.site stop (some name))) :
    setting.Follows asked tour group (setting.Staying asked (stop.cursor (some name) group))
      (do
        if ← Run.isTraversable setting.environment access then do
          let value ← Run.propertyValue setting.environment access
          Engine.validateValue setting.environment visit target value
        else pure ())
      (setting.leads stop name target access) := by
  intro context staying asks
  have site := staying.site_eq
  have asking := isTraversable_tracks consistent staying.1 access (by rw [site]; exact member)
  rw [site] at asking
  unfold Setting.leads at asks ⊢
  cases allowed : setting.isOpen (setting.site stop (some name)) access.kind with
  | error error =>
    rw [allowed] at asking
    simp only [allowed]
    exact Tracks.bind_of_error asking
  | ok answer =>
    rw [allowed] at asking
    simp only [allowed] at asks ⊢
    refine Tracks.bind_of_ok asking ?_
    rintro middle ⟨stands, same⟩
    have stays := staying.step stands same
    have visited : middle.visited = context.visited := congrArg Cursor.visited same
    rw [← visited] at asks ⊢
    cases answer with
    | false => exact Follows.nothing middle stays asks
    | true =>
      have reading := propertyValue_tracks stays.1 access
      rw [stays.site_eq] at reading
      simp only at asks ⊢
      cases read : setting.value (setting.site stop (some name)) access with
      | error error =>
        rw [read] at reading
        exact Tracks.bind_of_error reading
      | ok value =>
        rw [read] at reading
        simp only [read] at asks ⊢
        refine Tracks.bind_of_ok reading ?_
        rintro last ⟨stands, same⟩
        have visited : last.visited = middle.visited := congrArg Cursor.visited same
        rw [← visited] at asks ⊢
        have plain : (stop.cursor (some name) group).path.leaf.mark = .plain := by
          simp [Stop.cursor, Path.add, Path.Node.named]
        exact validateValue_follows conducts (stop.cursor (some name) group) target value plain last
          (stays.step stands same) asks

theorem onProperty_follows (name : String) {step : Run Unit}
    {starts : List (Except ValidationError Stop)}
    (inner : setting.Follows asked tour group (setting.Staying asked (stop.cursor (some name) group))
      step starts) :
    setting.Follows asked tour group (setting.Staying asked (stop.cursor none group))
      (Run.onProperty name step) starts := by
  intro context staying asks
  have outside : context.property = none := congrArg Cursor.property staying.2
  have tracked : Tracks (Run.onProperty name step) context
      (Entry.each (setting.visit group) (walk tour context.visited starts).2)
      (Leaves setting asked
        { context.cursor with visited := (walk tour context.visited starts).1 }) :=
    Tracks.onProperty name _ staying.1 outside fun inside stands _ same => by
      have visited : inside.visited = context.visited := congrArg Cursor.visited same
      have path : context.path = stop.path := congrArg Cursor.path staying.2
      have stays : setting.Staying asked (stop.cursor (some name) group) inside :=
        ⟨stands, by rw [same, staying.2, path, visited]; rfl⟩
      rw [← visited] at asks ⊢
      refine (inner inside stays asks).weaken ?_
      rintro _ later ⟨staysLater, visitedLater⟩
      refine ⟨staysLater.1, ?_⟩
      rw [staysLater.2, stays.2, visitedLater]
  refine tracked.weaken ?_
  rintro _ later ⟨stands, same⟩
  have visited : later.visited = (walk tour context.visited starts).1 := congrArg Cursor.visited same
  exact ⟨⟨stands, by rw [same, staying.2, visited]⟩, visited⟩

/-- Going on from a stop follows what is onward of it. -/
theorem validateCascades_follows (consistent : setting.Consistent asked)
    (conducts : setting.Conducts asked visit tour) (asks : setting.AsksWithin asked stop) :
    setting.Follows asked tour group (setting.Staying asked (stop.cursor none group))
      (Engine.validateCascades setting.environment visit stop.metadata) (setting.onward stop) := by
  refine Follows.forEach stop.metadata.properties fun property _ => ?_
  unfold Setting.leadsOf
  cases property.cascade with
  | none => exact Follows.nothing
  | some target =>
    refine onProperty_follows property.name (Follows.forEach property.cascadeAccesses ?_)
    intro access _
    exact cascadeAccess_follows consistent conducts target access property.name
      (asks.1 property.name)

end Cascades

/-! ### Beans -/

open Setting

variable {stop : Stop}

theorem each_visit_ok (rest : List (Except ValidationError Stop)) :
    Entry.each (setting.visit group) (.ok stop :: rest)
      = (do
          Entry.arrive stop
          setting.validateStop group stop
          Entry.each (setting.visit group) rest) := by
  simp only [Entry.each, Setting.visit, Entry.ofExcept, pure_bind, bind_assoc]

theorem onBean_tracks {cursor : Cursor} {context : Context} {step : Run Unit} {entry : Entry Unit}
    {seen : List String} (staying : setting.Staying asked cursor context)
    (path : cursor.path = stop.path)
    (inner : ∀ inside : Context, setting.Staying asked (stop.cursor none cursor.group) inside →
      inside.ledger = context.ledger → inside.visited = context.visited →
        Tracks step inside entry fun _ later =>
          setting.Staying asked (stop.cursor none cursor.group) later ∧ later.visited = seen) :
    Tracks (Run.onBean stop.bean stop.metadata step) context entry fun _ later =>
      setting.Staying asked cursor later ∧ later.visited = seen := by
  have here := staying.2
  simp only [Context.cursor, Cursor.mk.injEq] at here
  obtain ⟨bean, metadata, property, place, group, -⟩ := here
  refine Tracks.after (Run.get_apply context) rfl (Tracks.restoring
    (Tracks.after (Run.modify_apply _ context) rfl (inner _ ⟨{ staying.1 with
      lastRead := fun _ read => by cases read }, ?_⟩ rfl rfl)) (fun _ => rfl) ?_)
  · simp only [Context.cursor, Stop.cursor, place, path, group]
  · rintro _ later ⟨stays, visited⟩
    have there := stays.2
    simp only [Context.cursor, Stop.cursor, Cursor.mk.injEq] at there
    obtain ⟨-, -, -, placeLater, groupLater, -⟩ := there
    refine ⟨⟨{ stays.1 with lastRead := fun _ read => by cases read }, ?_⟩, visited⟩
    simp only [Context.cursor, bean, metadata, property, placeLater, path, groupLater]

/-- Entering a bean follows the stop and what is onward of it. -/
theorem enter_tracks (consistent : setting.Consistent asked) {visit : Value → MetaBean → Run Unit}
    (conducts : setting.Conducts asked visit tour) {cursor : Cursor} {context : Context}
    (path : cursor.path = stop.path) (staying : setting.Staying asked cursor context)
    (asks : setting.AsksWithin asked stop)
    (asksBelow : ∀ other, .ok other ∈ (walk tour context.visited (setting.onward stop)).2 →
      setting.AsksWithin asked other) :
    Tracks
      (do
        Run.record (.entered stop.bean stop.metadata (← get).path)
        Run.onBean stop.bean stop.metadata do
          Engine.withDefaultSequence stop.metadata
            (Engine.validateOwn setting.environment stop.metadata)
          Engine.validateCascades setting.environment visit stop.metadata)
      context
      (Entry.each (setting.visit cursor.group)
        (.ok stop :: (walk tour context.visited (setting.onward stop)).2))
      fun _ later => setting.Staying asked cursor later
        ∧ later.visited = (walk tour context.visited (setting.onward stop)).1 := by
  have place : context.path = stop.path := (congrArg Cursor.path staying.2).trans path
  rw [each_visit_ok]
  refine Tracks.after (Run.get_apply context) rfl ?_
  rw [place]
  have arriving : Tracks (Run.record (.entered stop.bean stop.metadata stop.path)) context
      (Entry.arrive stop) fun _ later =>
        setting.Staying asked cursor later ∧ later.visited = context.visited :=
    Agree.ok () { context with journal := .entered stop.bean stop.metadata stop.path :: context.journal }
      ⟨⟨{ staying.1 with }, staying.2⟩, rfl⟩
  refine Tracks.bind arriving ?_
  rintro _ entered ⟨stays, seen⟩
  refine onBean_tracks stays path fun inside here _ visited => ?_
  have group : inside.group = cursor.group := congrArg Cursor.group here.2
  have at_stop : inside.At setting asked stop none := ⟨here.1, here.site_eq⟩
  have own := withDefaultSequence_tracks consistent asks at_stop
  rw [group] at own
  refine Tracks.bind own ?_
  rintro _ middle ⟨stands, same⟩
  have visitedMiddle : middle.visited = context.visited :=
    ((congrArg Cursor.visited same).trans visited).trans seen
  rw [← visitedMiddle] at asksBelow ⊢
  exact validateCascades_follows consistent conducts asks middle (here.step stands same) asksBelow

/-- Validating a bean on so many levels, and below them by another step. -/
def Engine.validateBeanOver (environment : Environment) (bottom : Value → MetaBean → Run Unit) :
    Nat → Value → MetaBean → Run Unit
  | 0, bean, metadata => bottom bean metadata
  | fuel + 1, bean, metadata => do
    let isNew ← match bean.bean? with
      | some ref => Run.markVisited ref
      | none => pure true
    if !isNew then pure ()
    else do
      Run.record (.entered bean metadata (← get).path)
      Run.onBean bean metadata do
        withDefaultSequence metadata (validateOwn environment metadata)
        validateCascades environment (validateBeanOver environment bottom fuel) metadata

/-- Below its levels the validation of a bean does nothing. -/
theorem validateBean_eq_over (environment : Environment) (levels : Nat) :
    Engine.validateBean environment levels
      = Engine.validateBeanOver environment (fun _ _ => pure ()) levels := by
  induction levels with
  | zero => rfl
  | succ levels ih =>
    -- One level is a level over whatever is done below it.
    exact congrArg (fun below => Engine.validateBeanOver environment below 1) ih

/-- **Validating a bean follows the tour from it.** -/
theorem validateBeanOver_follows (consistent : setting.Consistent asked)
    {visit : Value → MetaBean → Run Unit} (conducts : setting.Conducts asked visit tour)
    (levels : Nat) :
    setting.Conducts asked (Engine.validateBeanOver setting.environment visit levels)
      (setting.tourOver tour levels) := by
  induction levels with
  | zero => exact conducts
  | succ levels ih =>
    intro stop cursor path context staying asks
    rw [walk_ok] at asks ⊢
    unfold Engine.validateBeanOver
    cases isBean : stop.bean.bean? with
    | none =>
      simp only [Setting.tourOver, isBean] at asks ⊢
      exact enter_tracks consistent ih path staying (asks stop List.mem_cons_self)
        fun other member => asks other (List.mem_cons_of_mem _ member)
    | some ref =>
      simp only [Setting.tourOver, isBean] at asks ⊢
      cases known : context.visited.contains ref.id with
      | true =>
        have marked : Run.markVisited ref context = .ok false context := by
          simp only [Run.markVisited, Run.bind_apply, Run.get_apply, known, if_true, Run.pure_apply]
        exact Tracks.after marked rfl (Tracks.of_ok rfl rfl ⟨staying, rfl⟩)
      | false =>
        have marked : Run.markVisited ref context
            = .ok true { context with visited := ref.id :: context.visited } := by
          simp only [Run.markVisited, Run.bind_apply, Run.get_apply, known, Bool.false_eq_true,
            if_false, Run.set_apply, Run.pure_apply]
        have stays : setting.Staying asked cursor
            { context with visited := ref.id :: context.visited } :=
          ⟨{ staying.1 with }, congrArg (fun here : Cursor =>
            { here with visited := ref.id :: context.visited }) staying.2⟩
        simp only [known, Bool.false_eq_true, if_false] at asks ⊢
        exact Tracks.after marked rfl
          (enter_tracks consistent ih path stays (asks stop List.mem_cons_self)
            fun other member => asks other (List.mem_cons_of_mem _ member))

/-- A step that does nothing follows the tour that comes nowhere. -/
theorem nowhere_follows :
    setting.Conducts asked (fun _ _ => pure ()) fun seen _ => (seen, []) :=
  fun _ _ _ _ staying _ => Tracks.of_ok rfl rfl ⟨staying, rfl⟩

/-! ### Passes -/

/-- Where a pass starts from, in a group. -/
def Cursor.home (group : TypeKey) : Cursor := ⟨.null, none, none, .root, group, []⟩

/-- A pass, given how beans are visited: through a root that is validated as a whole, or through
the elements of a root. -/
def Engine.passBy (environment : Environment) (visit : Value → MetaBean → Run Unit) (root : Value)
    (metadata : Option MetaBean) : Run Unit :=
  match metadata with
  | some metadata => visit root metadata
  | none => validateValue environment visit .dynamic root

theorem passBy_follows {visit : Value → MetaBean → Run Unit}
    (conducts : setting.Conducts asked visit tour) (root : Value) (metadata : Option MetaBean)
    (group : TypeKey) :
    setting.Follows asked tour group (setting.Staying asked (.home group))
      (Engine.passBy setting.environment visit root metadata) (setting.starts root metadata) := by
  cases metadata with
  | some metadata => exact conducts ⟨root, metadata, .root⟩ (.home group) rfl
  | none => exact validateValue_follows conducts (.home group) .dynamic root rfl

/-- A context between two passes. -/
def Setting.Resting (setting : Setting) (asked : Site → Prop) (context : Context) : Prop :=
  ∃ group, setting.Staying asked (.home group) context

theorem Setting.Resting.startPass {context : Context} (resting : setting.Resting asked context)
    (group : TypeKey) :
    setting.Staying asked (.home group) { context with visited := [], group } := by
  obtain ⟨before, stands, same⟩ := resting
  simp only [Context.cursor, Cursor.mk.injEq, Cursor.home] at same
  obtain ⟨bean, metadata, property, path, -, -⟩ := same
  refine ⟨{ stands with }, ?_⟩
  simp only [Context.cursor, Cursor.home, bean, metadata, property, path]

theorem Setting.Resting.backToDefault {context : Context}
    (resting : setting.Resting asked context) :
    setting.Resting asked (Engine.backToDefault context) := by
  obtain ⟨group, stands, same⟩ := resting
  exact ⟨.defaultGroup, { stands with },
    congrArg (fun here : Cursor => { here with group := .defaultGroup }) same⟩

/-- Going through the groups of a request, with an entry for each group, between which a context is
`kept`. -/
theorem forEachGroup_tracks {step : Run Unit} {entry : TypeKey → Entry Unit}
    {kept ending : Context → Prop}
    (counts : ∀ context, kept context → context.violationCount = context.reported.length)
    (passes : ∀ group context, kept context →
      Tracks step { context with visited := [], group } (entry group) fun _ later => kept later)
    (comesBack : ∀ context, kept context → ending (Engine.backToDefault context))
    (groups : Groups) {context : Context} (holds : kept context) :
    Tracks (Engine.forEachGroup groups step) context
      (do
        Entry.each entry groups.plain
        Entry.each (Entry.upToFirst entry) groups.sequences)
      fun _ later => ending later := by
  have plain : Tracks (Run.forEach (fun group => do Engine.startPass group; step) groups.plain)
      context (Entry.each entry groups.plain) fun _ later => kept later := by
    refine Tracks.forEach kept groups.plain ?_ holds
    intro group _ between holds
    exact Tracks.after (Run.modify_apply _ between) rfl (passes group between holds)
  -- Sequences start where the plain groups have left the context, with the beans of the last pass
  -- still visited; each pass forgets them.
  have sequences : ∀ between, kept between →
      Tracks (Run.forEach (Engine.runSequence Engine.startPass step) groups.sequences) between
        (Entry.each (Entry.upToFirst entry) groups.sequences) fun _ later => kept later := by
    intro between holds
    refine Tracks.forEach kept groups.sequences ?_ holds
    intro sequence _ context holds
    exact runSequence_tracks (fun group context => { context with visited := [], group }) kept
      counts (fun _ _ => rfl) (fun _ _ => rfl) (fun _ _ => rfl) passes sequence holds
  exact Tracks.restoring (Tracks.bind plain fun _ between holds => sequences between holds)
    (fun _ => rfl) fun _ later holds => comesBack later holds

/-- **A call tracks its passes over the stops that its visits come to.** -/
theorem passes_track {visit : Value → MetaBean → Run Unit}
    (conducts : setting.Conducts asked visit tour) (root : Value) (metadata : Option MetaBean)
    (groups : Groups) {context : Context}
    (asks : ∀ stop, .ok stop ∈ (walk tour [] (setting.starts root metadata)).2 →
      setting.AsksWithin asked stop)
    (resting : setting.Resting asked context) :
    Tracks (Engine.forEachGroup groups (Engine.passBy setting.environment visit root metadata))
      context (setting.call (walk tour [] (setting.starts root metadata)).2 groups)
      fun _ later => setting.Resting asked later := by
  refine forEachGroup_tracks (fun _ ⟨_, stays⟩ => stays.1.count) (fun group between resting => ?_)
    (fun _ resting => resting.backToDefault) groups resting
  exact (passBy_follows conducts root metadata group _ (resting.startPass group) asks).weaken
    fun _ later ⟨stays, _⟩ => ⟨group, stays⟩

end Passage

end GraphValidation
