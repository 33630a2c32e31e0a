/-
**Validating one property by its path.**

The bean of a property is followed to from the root; then the constraints of the property alone are
evaluated on that bean, for the groups of the request.

* `Setting.callProperty` — the constraints of one property, for some groups.
* `validateProperty_shows` — **validating a property by the path that a validation writes evaluates
  its constraints on the bean of the path**.
* `validateProperty_misses` — keys that are numbers or not the declared constants are not found.
-/
import GraphValidation.Proofs.Navigation

namespace GraphValidation

/-! ### The constraints of one property -/

namespace Setting

/-- Validates the constraints of one property of a stop in a group. -/
def sweepProperty (setting : Setting) (stop : Stop) (property : MetaProperty) (group : TypeKey) :
    Entry Unit :=
  Entry.each (setting.examine group stop)
    (dutiesFrom stop.metadata.type (some property.name) 0 property.constraints)

/-- Validates the constraints of one property of a stop for each plain group, and for each sequence
up to its first violated group. -/
def callProperty (setting : Setting) (stop : Stop) (property : MetaProperty) (groups : Groups) :
    Entry Unit := do
  let step := Entry.forDefault stop.metadata (setting.sweepProperty stop property)
  Entry.each step groups.plain
  Entry.each (Entry.upToFirst step) groups.sequences

end Setting

section OneProperty

variable {setting : Setting} {asked : Site → Prop} {context : Context} {stop : Stop}

/-- At a property, the groups of a request are gone through with the constraints of the property. -/
theorem propertyGroups_track (consistent : setting.Consistent asked) {property : MetaProperty}
    (asks : asked (setting.site stop (some property.name))) (groups : Groups)
    (here : context.At setting asked stop (some property.name))
    (fresh : context.visited = []) (atRest : context.group = .defaultGroup) :
    Tracks
      (Engine.forEachGroup groups (Engine.withDefaultSequence stop.metadata
        (Engine.validateMetaProperty setting.environment stop.metadata.type property)))
      context (setting.callProperty stop property groups)
      (Leaves setting asked context.cursor) := by
  let kept : Context → Prop := fun later =>
    later.Stands setting asked ∧ ∃ group, later.cursor = { context.cursor with group }
  have own : ∀ inside : Context, inside.At setting asked stop (some property.name) →
      Tracks (Engine.validateMetaProperty setting.environment stop.metadata.type property) inside
        (setting.sweepProperty stop property inside.group) (Leaves setting asked inside.cursor) :=
    fun inside at_stop => validateConstraints_tracks consistent (some property.name)
      property.constraints 0 at_stop fun _ _ _ => asks
  have passes : ∀ group between, kept between →
      Tracks
        (Engine.withDefaultSequence stop.metadata
          (Engine.validateMetaProperty setting.environment stop.metadata.type property))
        { between with visited := [], group }
        (Entry.forDefault stop.metadata (setting.sweepProperty stop property) group)
        fun _ later => kept later := by
    rintro group between ⟨stands, before, same⟩
    have cursor : Context.cursor { between with visited := [], group }
        = { context.cursor with group } := by
      simp only [Context.cursor, Cursor.mk.injEq] at same ⊢
      obtain ⟨bean, metadata, named, path, -, -⟩ := same
      exact ⟨bean, metadata, named, path, trivial, fresh.symm⟩
    have there : Context.At setting asked stop (some property.name)
        { between with visited := [], group } := by
      refine ⟨{ stands with }, ?_⟩
      have at_stop := here.site
      simp only [Context.cursor, Cursor.mk.injEq] at cursor
      obtain ⟨bean, -, named, path, -, -⟩ := cursor
      simp only [Context.site, stands.rootType, bean, named, path] at at_stop ⊢
      simpa only [here.stands.rootType] using at_stop
    refine (forDefault_tracks there own).weaken fun _ later leaves => ⟨leaves.1, group, ?_⟩
    rw [leaves.2, cursor]
  have comesBack : ∀ between, kept between →
      Leaves setting asked context.cursor () (Engine.backToDefault between) := by
    rintro between ⟨stands, group, same⟩
    refine ⟨{ stands with }, ?_⟩
    have back := congrArg (fun cursor : Cursor => { cursor with group := .defaultGroup }) same
    rw [← atRest] at back
    simpa only [Engine.backToDefault, Context.cursor, atRest] using back
  exact forEachGroup_tracks (fun _ holds => holds.1.count) passes comesBack groups
    ⟨here.stands, context.group, rfl⟩

/-- Validating one property of a bean tracks the constraints of the property at its stop. -/
theorem validateOneProperty_tracks (consistent : setting.Consistent asked)
    {property : MetaProperty} (asks : asked (setting.site stop (some property.name)))
    (groups : Groups) {cursor : Cursor} (path : cursor.path = stop.path)
    (atRest : cursor.group = .defaultGroup) (staying : setting.Staying asked cursor context)
    (fresh : context.visited = []) :
    Tracks
      (Run.onBean stop.bean stop.metadata
        (Engine.validateOneProperty setting.environment stop.metadata property groups))
      context (setting.callProperty stop property groups)
      fun _ later => setting.Staying asked cursor later ∧ later.visited = [] := by
  refine onBean_tracks staying path fun bean here _ visited => ?_
  have outside : bean.property = none := congrArg Cursor.property here.2
  have unvisited : bean.visited = [] := visited.trans fresh
  have group : bean.group = .defaultGroup := (congrArg Cursor.group here.2).trans atRest
  have validated : Tracks
      (Engine.validateOneProperty setting.environment stop.metadata property groups) bean
      (setting.callProperty stop property groups)
      (Leaves setting asked { bean.cursor with visited := [] }) := by
    refine Tracks.onProperty property.name [] here.1 outside fun inside stands _ same => ?_
    have there : inside.At setting asked stop (some property.name) := by
      refine ⟨stands, ?_⟩
      have at_stop := here.site_eq
      simp only [Context.cursor, Cursor.mk.injEq] at same
      obtain ⟨isBean, -, named, place, -, -⟩ := same
      have base : bean.path = stop.path := congrArg Cursor.path here.2
      have isStop : bean.bean = stop.bean := congrArg Cursor.bean here.2
      simp only [Context.site, Setting.site, stands.rootType, isBean, named, place, base, isStop]
    have unvisitedInside : inside.visited = [] := (congrArg Cursor.visited same).trans unvisited
    have tracked := propertyGroups_track consistent asks groups there unvisitedInside
      ((congrArg Cursor.group same).trans group)
    refine tracked.weaken fun _ later leaves => ⟨leaves.1, ?_⟩
    rw [leaves.2, ← unvisitedInside]
    rfl
  refine validated.weaken ?_
  rintro _ later ⟨stands, same⟩
  refine ⟨⟨stands, ?_⟩, ?_⟩
  · have home := here.2
    rw [same, home]
    simp only [Context.cursor, Cursor.mk.injEq] at same
    rw [same.2.2.2.2.2]
  · exact congrArg Cursor.visited same

end OneProperty

/-! ### Calls -/

section Calls

variable {validator : Validator} {heap : Heap} {root : Value} {stop : Stop}

theorem Setting.Cleared.root_members {setting : Setting} (cleared : setting.Cleared root stop) :
    Engine.isBeanLike setting.environment root = true := by
  induction cleared with
  | start members _ => exact members
  | onward _ _ _ _ _ ih => exact ih

/-- The way to a property is the path of its bean. -/
theorem Path.above_add (path : Path) (name : String) :
    (path.add name).above.reverse = path.steps := by
  by_cases isRoot : path.isRoot = true
  · rw [add, push_of_isRoot _ isRoot, steps, if_pos isRoot]
    rfl
  · rw [add, push, if_neg isRoot, steps, if_neg isRoot]
    rfl

theorem Path.steps_written (path : Path) : path.written.steps = path.steps.map Node.written := by
  unfold steps
  rw [isRoot_written]
  split
  · rfl
  · simp [nodes, written]

/-- After the metadata of its root and the groups are known, validating a property by its path
tracks the constraints of the property. -/
theorem validatePath_tracks {setting : Setting} {asked : Site → Prop} {context : Context}
    (consistent : setting.Consistent asked)
    (wellFormed : ∀ type metadata, setting.metadata type = .ok metadata → metadata.WellFormed)
    (cleared : setting.Cleared root stop) {property : MetaProperty}
    (member : property ∈ stop.metadata.properties)
    (asks : asked (setting.site { stop with path := stop.path.written } (some property.name)))
    {metadata : MetaBean} (built : setting.metadata root.runtimeType = .ok metadata)
    (groups : Groups) (stands : context.Stands setting asked)
    (atHome : context.cursor = .home .defaultGroup) :
    Tracks
      (Engine.validateProperty setting.environment root metadata
        (stop.path.written.add property.name) groups)
      context
      (setting.callProperty { stop with path := stop.path.written } property groups)
      fun _ _ => True := by
  unfold Engine.validateProperty
  rw [Path.above_add, Path.steps_written]
  refine Tracks.bind_of_ok (cleared.navigate_tracks wellFormed built stands) ?_
  rintro middle ⟨stands, same⟩
  have named := namedProperty_of_mem (wellFormed _ _ cleared.own) member
    (show (stop.path.written.add property.name).leaf.name = some property.name by
      simp [Path.add, Path.Node.named])
  simp only [named, pure_bind]
  refine Tracks.after (Run.modify_apply _ middle) rfl ?_
  have home := same.trans atHome
  simp only [Context.cursor, Cursor.home, Cursor.mk.injEq] at home
  obtain ⟨-, -, -, -, group, visited⟩ := home
  have staying : setting.Staying asked
      ⟨middle.bean, middle.metadata, middle.property, stop.path.written, .defaultGroup, []⟩
      { middle with path := stop.path.written } := by
    refine ⟨{ stands with }, ?_⟩
    simp only [Context.cursor, group]
  exact (validateOneProperty_tracks consistent asks groups rfl rfl staying visited).weaken
    fun _ _ _ => trivial

/-- The path of a property of a stop is read back from its text. -/
theorem Setting.Cleared.parse_text {setting : Setting} (cleared : setting.Cleared root stop)
    {name : String} (legible : Path.LegibleName name) :
    Path.parse (stop.path.add name).text = .ok (stop.path.written.add name) := by
  have nodes : ∀ node ∈ (stop.path.add name).steps, node.Legible := by
    rw [Path.steps_add]
    intro node inside
    rcases List.mem_append.mp inside with before | isLast
    · exact cleared.legible node before
    · rw [List.mem_singleton.mp isLast]
      exact ⟨⟨name, rfl, legible⟩, trivial⟩
  rw [Path.parse_text nodes, Path.written_add]

/-- Where the groups are known, the steps of the call track the constraints of the property. -/
theorem validateProperty_tracks {metadata : MetaBean} {property : MetaProperty}
    (built : validator.cache.configuration.build root.runtimeType = .ok metadata)
    (cleared : (validator.setting heap root (some metadata)).Cleared root stop)
    (member : property ∈ stop.metadata.properties) (groups : Groups) {context : Context}
    (alike : context.cache.configuration = validator.cache.configuration)
    (begins : context = { Context.start validator.cache with cache := context.cache }) :
    Tracks
      (do
        Validator.setRootType metadata.type
        Engine.validateProperty (validator.environment heap) root metadata
          (stop.path.written.add property.name) groups)
      context
      ((validator.setting heap root (some metadata)).callProperty
        { stop with path := stop.path.written } property groups)
      fun _ _ => True := by
  let setting := validator.setting heap root (some metadata)
  let asked : Site → Prop := fun site =>
    site = setting.site { stop with path := stop.path.written } (some property.name)
  have consistent : setting.Consistent asked := by
    rintro _ _ rfl rfl _ _ _
    rfl
  have stands : Context.Stands setting asked { context with rootType := some metadata.type } := by
    rw [begins]
    exact starting_stands alike
  refine Tracks.after (Run.modify_apply _ context) rfl ?_
  refine validatePath_tracks consistent (fun _ _ => Configuration.build_wellFormed) cleared member
    rfl built groups stands ?_
  rw [begins]
  rfl

/-- Validating a property by an expression that is read as its path evaluates the constraints of the
property on the bean of the path. -/
theorem validateProperty_shows_of_parse {metadata : MetaBean} {property : MetaProperty}
    (built : validator.cache.configuration.build root.runtimeType = .ok metadata)
    (cleared : (validator.setting heap root (some metadata)).Cleared root stop)
    (member : property ∈ stop.metadata.properties) {expression : String}
    (parses : Path.parse expression = .ok (stop.path.written.add property.name))
    (requested : List TypeKey) :
    (validator.validateProperty heap root expression requested).Shows
      (match validator.groups? requested with
        | .ok groups => (validator.setting heap root (some metadata)).callProperty
          { stop with path := stop.path.written } property groups .blank
        | .error error => .error error .blank) := by
  have present := isNull_of_isBeanLike cleared.root_members
  let context : Context :=
    { Context.start validator.cache with cache := (validator.cache.get root.runtimeType).2 }
  have alike : context.cache.configuration = validator.cache.configuration :=
    MetadataCache.get_snd_configuration _ _
  have known : Run.metadataOf root.runtimeType (.start validator.cache) = .ok metadata context :=
    metadataOf_of_ok built
  have resolved := resolveGroups_apply requested context alike
  rw [Validator.validateProperty, call_eq_outcomeAt]
  simp only [Validator.requireRoot, present, Bool.false_eq_true, if_false, pure_bind, parses,
    Run.ofExcept, Run.bind_apply, Run.pure_apply, known]
  cases asks : validator.groups? requested with
  | error error =>
    rw [asks] at resolved
    simp only [resolved]
    exact ⟨rfl, rfl, rfl⟩
  | ok groups =>
    rw [asks] at resolved
    have tracked := validateProperty_tracks built cleared member groups alike rfl
    have blank : context.ledger = .blank := rfl
    rw [← blank]
    simp only [resolved]
    exact outcomeAt_shows tracked

/-- **Validating a property by the path that a validation writes evaluates the constraints of that
property on the bean of the path**, and neither fails nor ends on the way. -/
theorem validateProperty_shows {metadata : MetaBean} {property : MetaProperty}
    (built : validator.cache.configuration.build root.runtimeType = .ok metadata)
    (cleared : (validator.setting heap root (some metadata)).Cleared root stop)
    (member : property ∈ stop.metadata.properties) (name : Path.LegibleName property.name)
    (requested : List TypeKey) :
    (validator.validateProperty heap root (stop.path.add property.name).text requested).Shows
      (match validator.groups? requested with
        | .ok groups => (validator.setting heap root (some metadata)).callProperty
          { stop with path := stop.path.written } property groups .blank
        | .error error => .error error .blank) :=
  validateProperty_shows_of_parse built cleared member (cleared.parse_text name) requested

end Calls

/-! ### A shelf of books -/

namespace Shelf

def kind : TypeKey := ⟨"Kind"⟩
def note : TypeKey := ⟨"Note"⟩
def book : TypeKey := ⟨"Book"⟩
def shelf : TypeKey := ⟨"Shelf"⟩

def types : TypeSystem :=
  (TypeSystem.builtin.registerAll
    [⟨kind, .enum ["HOME", "WORK"], none, []⟩, .ofClass note [], .ofClass book [],
     .ofClass shelf []]).1

def books : TypeRef := .mk .list [.mk book []]
def notes (keys : TypeKey) : TypeRef := .mk .map [.mk keys [], .mk note []]

/-- A shelf with books, whose notes stand under keys of a type. -/
def configuration (keys : TypeKey) : Configuration where
  types := types
  catalog := ⟨[Ring.present]⟩
  annotations := [⟨[
    .ofProperties note [⟨"text", .field, .named .string, [Ring.presentIn .defaultGroup], false⟩],
    .ofProperties book [⟨"notes", .field, notes keys, [], true⟩],
    .ofProperties shelf [⟨"books", .field, books, [], true⟩]]⟩]
  mappings := []

def validator (keys : TypeKey) : Validator :=
  .ofConfiguration (configuration keys) .default (fun template _ _ => template) false

def theNote : BeanRef := ⟨"note", note⟩
def theBook : BeanRef := ⟨"book", book⟩
def theShelf : BeanRef := ⟨"shelf", shelf⟩

/-- A shelf with one book, which has a note without text. -/
def heap (key : MapKey) : Heap where
  beans :=
    [⟨theNote, [("text", .null)], [], true⟩,
     ⟨theBook, [("notes", .map [(key, .bean theNote)])], [], true⟩,
     ⟨theShelf, [("books", .list [.bean theBook])], [], true⟩]

def home : MapKey := .enum ⟨kind, "HOME"⟩

/-- What is known of a property of a type. -/
def known? (type : TypeKey) (name : String) :
    Option (TypeRef × Option CascadeTarget × List Access) :=
  ((configuration kind).build type).toOption.bind fun metadata =>
    (metadata.property? name).map fun property =>
      (property.declared, property.cascade, property.cascadeAccesses)

theorem of_known? {type : TypeKey} {name : String} {declared : TypeRef}
    {cascade : Option CascadeTarget} {accesses : List Access}
    (known : known? type name = some (declared, cascade, accesses)) :
    ∃ metadata property, (configuration kind).build type = .ok metadata
      ∧ property ∈ metadata.properties ∧ property.name = name ∧ property.declared = declared
      ∧ property.cascade = cascade ∧ property.cascadeAccesses = accesses := by
  obtain ⟨metadata, built, known⟩ := Option.bind_eq_some_iff.mp known
  obtain ⟨property, found, same⟩ := Option.map_eq_some_iff.mp known
  cases same
  have named : property.name = name := by simpa using List.find?_some found
  exact ⟨metadata, property, eq_ok_of_toOption built, List.mem_of_find?_eq_some found, named,
    rfl, rfl, rfl⟩

theorem known?_books :
    known? shelf "books" = some (books, some (.static book), [.field "books" books]) := by
  decide +kernel

theorem known?_notes : known? book "notes"
    = some (notes kind, some (.static note), [.field "notes" (notes kind)]) := by
  decide +kernel

theorem known?_text : known? note "text" = some (.named .string, none, []) := by decide +kernel

theorem legible_books : Path.LegibleName "books" := by decide
theorem legible_notes : Path.LegibleName "notes" := by decide
theorem legible_text : Path.LegibleName "text" := by decide

end Shelf

/-- A property with a single access leads on to a part that is taken for what it is. -/
theorem Setting.Cleared.along {setting : Setting} {root value element : Value} {stop : Stop}
    {metadata : MetaBean} {property : MetaProperty} {target : CascadeTarget} {access : Access}
    {mark : Path.Mark} (cleared : setting.Cleared root stop)
    (member : property ∈ stop.metadata.properties) (legible : Path.LegibleName property.name)
    (cascaded : property.cascade = some target) (single : property.cascadeAccesses = [access])
    (read : access.read setting.environment.heap stop.bean = .ok value)
    (part : (mark, element) ∈ setting.parts value)
    (finds : Setting.FindsPart setting.environment.types property.declared value mark)
    (members : Engine.isBeanLike setting.environment element = true)
    (built : setting.metadata element.runtimeType = .ok metadata)
    (own : targetType target element = element.runtimeType) :
    setting.Cleared root ⟨element, metadata, (stop.path.add property.name).markLeaf mark⟩ := by
  let hop : setting.Hop stop := ⟨property, target, access, value, mark, element⟩
  have way : access ∈ property.cascadeAccesses := by
    rw [single]
    exact List.mem_cons_self
  have alike : ∀ other ∈ property.cascadeAccesses,
      other.read setting.environment.heap stop.bean = .ok value := by
    rw [single]
    intro other isOther
    rw [List.mem_singleton.mp isOther, read]
  have opened : hop.Open := ⟨member, cascaded, way, read, part, members⟩
  have clear : hop.Clear := ⟨legible, alike, finds, by rw [own]⟩
  exact .onward hop cleared opened clear (Setting.stopAt_eq_ok.mpr ⟨metadata, own ▸ built, rfl⟩)

/-- The note under a constant is found by the path of its violation. -/
theorem validateProperty_shows_on_shelf :
    ∃ (setting : Setting) (stop : Stop) (property : MetaProperty),
      stop.bean = .bean Shelf.theNote ∧ property.name = "text"
      ∧ property ∈ stop.metadata.properties
      ∧ ((Shelf.validator Shelf.kind).validateProperty (Shelf.heap Shelf.home)
          (.bean Shelf.theShelf) "books[0].notes[HOME].text" []).Shows
        (setting.callProperty stop property ⟨[.defaultGroup], []⟩ .blank) := by
  obtain ⟨shelf, books, builtShelf, isBooks, named, -, cascade, single⟩ :=
    Shelf.of_known? Shelf.known?_books
  obtain ⟨book, notes, builtBook, isNotes, namedNotes, declared, cascadeNotes, singleNotes⟩ :=
    Shelf.of_known? Shelf.known?_notes
  obtain ⟨note, text, builtNote, isText, namedText, -⟩ := Shelf.of_known? Shelf.known?_text
  let setting := (Shelf.validator Shelf.kind).setting (Shelf.heap Shelf.home)
    (.bean Shelf.theShelf) (some shelf)
  have atShelf : setting.Cleared (.bean Shelf.theShelf) ⟨.bean Shelf.theShelf, shelf, .root⟩ :=
    .start rfl builtShelf
  have atBook : setting.Cleared (.bean Shelf.theShelf)
      ⟨.bean Shelf.theBook, book, (Path.root.add books.name).markLeaf (.index 0)⟩ :=
    atShelf.along isBooks (named ▸ Shelf.legible_books) cascade single rfl List.mem_cons_self
      (Nat.two_pow_pos 64) rfl builtBook rfl
  have finds : Setting.FindsKey Shelf.types notes.declared
      (.map [(Shelf.home, .bean Shelf.theNote)]) Shelf.home := by
    rw [declared]
    refine ⟨⟨by decide, by decide, by decide⟩, ?_, ?_⟩
    · rintro _ ⟨⟩
      decide
    · rintro _ ⟨⟩ -
      exact ⟨"HOME", rfl⟩
  have atNote := atBook.along isNotes (namedNotes ▸ Shelf.legible_notes) cascadeNotes singleNotes
    rfl List.mem_cons_self finds rfl builtNote rfl
  have shows := validateProperty_shows builtShelf atNote isText (namedText ▸ Shelf.legible_text) []
  rw [named, namedNotes, namedText] at shows
  exact ⟨setting, _, text, rfl, namedText, isText, shows⟩

/-- **Not every path that a validation writes can be followed**: what stands between brackets is
taken for a position where it is a number, and for a constant where the declared keys are an
enum. -/
theorem validateProperty_misses :
    (((Shelf.validator .integer).validate (Shelf.heap (.int 7)) (.bean Shelf.theShelf) []).heard.map
        fun violation => (violation.leafBean, violation.path.text))
      = [(some Shelf.theNote, "books[0].notes[7].text")]
    ∧ ((Shelf.validator .integer).validateProperty (Shelf.heap (.int 7)) (.bean Shelf.theShelf)
        "books[0].notes[7].text" []).failure
      = some (.access "books[0].notes[7]" (.wrongShape (.position 7) .map))
    ∧ (((Shelf.validator Shelf.kind).validate (Shelf.heap (.string "HOME")) (.bean Shelf.theShelf)
        []).heard.map fun violation => (violation.leafBean, violation.path.text))
      = [(some Shelf.theNote, "books[0].notes[HOME].text")]
    ∧ ((Shelf.validator Shelf.kind).validateProperty (Shelf.heap (.string "HOME"))
        (.bean Shelf.theShelf) "books[0].notes[HOME].text" []).failure.isNone
    ∧ ((Shelf.validator Shelf.kind).validateProperty (Shelf.heap (.string "HOME"))
        (.bean Shelf.theShelf) "books[0].notes[HOME].text" []).heard.isEmpty := by
  decide +kernel

end GraphValidation
