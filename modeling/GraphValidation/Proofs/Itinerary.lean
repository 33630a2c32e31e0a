/-
**What the stops of a pass have in common.**

A pass comes to each bean once, and it comes to a bean only from a bean before it: by a property of
its metadata, or else as a root or an element of the root.

* `Setting.itinerary_nodup` — no bean is a stop twice.
* `Setting.itinerary_all` — what holds at the starts and goes on from stop to stop holds at all
  stops.
* `Value.Takes`, `Setting.mem_onward` — how one stop leads to the next.
* `Setting.consistent_at_stops` — the answers of the resolver at the stops of a pass never mix.
* `Setting.itinerary_built` — the metadata of all stops is that of types.
-/
import GraphValidation.Proofs.AtStop
import GraphValidation.Proofs.Metadata

namespace GraphValidation

namespace Setting

variable {setting : Setting}

/-! ### Each bean once -/

/-- The identity of the bean at a stop. -/
def idAt : Except ValidationError Stop → Option String
  | .ok stop => stop.bean.bean?.map (·.id)
  | .error _ => none

/-- The identities of the beans among some stops. -/
def idsOf (stops : List (Except ValidationError Stop)) : List String := stops.filterMap idAt

theorem idsOf_append (first second : List (Except ValidationError Stop)) :
    idsOf (first ++ second) = idsOf first ++ idsOf second := List.filterMap_append

/-- Of stops with different beans, the first one has another bean than the later ones. -/
theorem apart_of_nodup {stop other : Stop} {rest : List (Except ValidationError Stop)}
    (nodup : (idsOf (.ok stop :: rest)).Nodup) (member : .ok other ∈ rest) (id : String)
    (known : idAt (.ok stop) = some id) : idAt (.ok other) ≠ some id := by
  intro same
  have ids : idsOf (.ok stop :: rest) = id :: idsOf rest := List.filterMap_cons_some known
  rw [ids] at nodup
  exact (List.nodup_cons.mp nodup).1 (List.mem_filterMap.mpr ⟨.ok other, member, same⟩)

theorem nodup_idsOf_rest {stop : Except ValidationError Stop}
    {rest : List (Except ValidationError Stop)} (nodup : (idsOf (stop :: rest)).Nodup) :
    (idsOf rest).Nodup :=
  nodup.sublist ((List.sublist_cons_self _ _).filterMap _)

/-- A tour comes to beans that the pass has not come to, each once, and remembers them. -/
structure Fresh (tour : Tour) : Prop where
  remembers : ∀ seen stop, (tour seen stop).1 = (idsOf (tour seen stop).2).reverse ++ seen
  nodup : ∀ seen stop, seen.Nodup → (tour seen stop).1.Nodup

theorem Fresh.walk_remembers {tour : Tour} (fresh : Fresh tour) (seen : List String)
    (starts : List (Except ValidationError Stop)) :
    (walk tour seen starts).1 = (idsOf (walk tour seen starts).2).reverse ++ seen := by
  induction starts generalizing seen with
  | nil => rfl
  | cons start rest ih =>
    cases start with
    | error error => exact ih seen
    | ok stop =>
      simp only [walk, idsOf_append, List.reverse_append, List.append_assoc]
      rw [ih, fresh.remembers]

theorem Fresh.walk_nodup {tour : Tour} (fresh : Fresh tour) {seen : List String}
    (nodup : seen.Nodup) (starts : List (Except ValidationError Stop)) :
    (walk tour seen starts).1.Nodup := by
  induction starts generalizing seen with
  | nil => exact nodup
  | cons start rest ih =>
    cases start with
    | error error => exact ih nodup
    | ok stop => exact ih (fresh.nodup seen stop nodup)

theorem fresh_nowhere : Fresh fun seen _ => (seen, []) := ⟨fun _ _ => rfl, fun _ _ nodup => nodup⟩

theorem fresh_tourOver {bottom : Tour} (fresh : Fresh bottom) (levels : Nat) :
    Fresh (setting.tourOver bottom levels) := by
  induction levels with
  | zero => exact fresh
  | succ levels ih =>
    constructor
    · intro seen stop
      cases isBean : stop.bean.bean? with
      | none =>
        rw [tourOver_of_other _ isBean, ih.walk_remembers]
        simp [idsOf, idAt, isBean]
      | some ref =>
        by_cases known : ref.id ∈ seen
        · rw [tourOver_of_known _ isBean known]
          rfl
        · rw [tourOver_of_new _ isBean known, ih.walk_remembers]
          simp [idsOf, idAt, isBean]
    · intro seen stop nodup
      cases isBean : stop.bean.bean? with
      | none =>
        rw [tourOver_of_other _ isBean]
        exact ih.walk_nodup nodup _
      | some ref =>
        by_cases known : ref.id ∈ seen
        · rw [tourOver_of_known _ isBean known]
          exact nodup
        · rw [tourOver_of_new _ isBean known]
          exact ih.walk_nodup (List.nodup_cons.mpr ⟨known, nodup⟩) _

/-- **No bean is a stop of a pass twice.** -/
theorem itinerary_nodup (setting : Setting) (root : Value) (metadata : Option MetaBean) :
    (idsOf (setting.itinerary root metadata)).Nodup := by
  have fresh := setting.fresh_tourOver fresh_nowhere (Engine.levels setting.environment root)
  have nodup := fresh.walk_nodup List.nodup_nil (setting.starts root metadata)
  rw [fresh.walk_remembers, List.append_nil] at nodup
  exact (List.pairwise_reverse.mp nodup).imp Ne.symm

/-! ### From stop to stop -/

/-- What goes on from stop to stop holds at all stops of a walk. -/
theorem walk_all {tour : Tour} {holds : Stop → Prop}
    (along : ∀ seen stop, holds stop → ∀ other, .ok other ∈ (tour seen stop).2 → holds other)
    {starts : List (Except ValidationError Stop)} (atStarts : ∀ stop, .ok stop ∈ starts → holds stop)
    (seen : List String) : ∀ stop, .ok stop ∈ (walk tour seen starts).2 → holds stop := by
  induction starts generalizing seen with
  | nil => exact nofun
  | cons start rest ih =>
    have atRest := ih fun stop member => atStarts stop (List.mem_cons_of_mem _ member)
    intro stop member
    cases start with
    | error error =>
      cases member with
      | tail _ member => exact atRest seen stop member
    | ok first =>
      cases List.mem_append.mp member with
      | inl here => exact along seen first (atStarts first List.mem_cons_self) stop here
      | inr later => exact atRest _ stop later

theorem tourOver_all {bottom : Tour} {holds : Stop → Prop}
    (onward : ∀ stop, holds stop → ∀ next, .ok next ∈ setting.onward stop → holds next)
    (below : ∀ seen stop, holds stop → ∀ other, .ok other ∈ (bottom seen stop).2 → holds other)
    (levels : Nat) (seen : List String) (stop : Stop) (here : holds stop) :
    ∀ other, .ok other ∈ (setting.tourOver bottom levels seen stop).2 → holds other := by
  induction levels generalizing seen stop with
  | zero => exact below seen stop here
  | succ levels ih =>
    have further := fun seen => walk_all (fun seen stop here => ih seen stop here)
      (onward stop here) seen
    intro other member
    cases isBean : stop.bean.bean? with
    | none =>
      rw [tourOver_of_other _ isBean] at member
      cases member with
      | head => exact here
      | tail _ member => exact further seen other member
    | some ref =>
      by_cases known : ref.id ∈ seen
      · rw [tourOver_of_known _ isBean known] at member
        cases member
      · rw [tourOver_of_new _ isBean known] at member
        cases member with
        | head => exact here
        | tail _ member => exact further _ other member

/-- **What holds at the starts and goes on from stop to stop holds at all stops.** -/
theorem itinerary_all {holds : Stop → Prop} {root : Value} {metadata : Option MetaBean}
    (atStarts : ∀ stop, .ok stop ∈ setting.starts root metadata → holds stop)
    (onward : ∀ stop, holds stop → ∀ next, .ok next ∈ setting.onward stop → holds next) :
    ∀ stop, .ok stop ∈ setting.itinerary root metadata → holds stop :=
  walk_all (tourOver_all onward (fun _ _ _ _ none => absurd none List.not_mem_nil) _) atStarts []

end Setting

/-! ### Elements of values -/

/-- The element of a value that a mark takes: the value itself, the element at a position, some
element of a set, or the value under a key. -/
inductive Value.Takes : Value → Path.Mark → Value → Prop
  | whole (value : Value) : Takes value .plain value
  | item {items : List Value} {position : Nat} {element : Value} :
    items[position]? = some element → Takes (.list items) (.index position) element
  | slot {items : List Value} {position : Nat} {element : Value} :
    items[position]? = some element → Takes (.array items) (.index position) element
  | member {items : List Value} {element : Value} :
    element ∈ items → Takes (.set items) .element element
  | entry {entries : List (MapKey × Value)} {key : MapKey} {element : Value} :
    (key, element) ∈ entries → Takes (.map entries) (.key (.entry key)) element

/-- The marks of positions count from the first one. -/
theorem Engine.mem_withPositions {first : Nat} {items : List Value} {mark : Path.Mark}
    {element : Value} :
    (mark, element) ∈ withPositions first items
      ↔ ∃ position, mark = .index (first + position) ∧ items[position]? = some element := by
  induction items generalizing first with
  | nil => simp [withPositions]
  | cons head rest ih =>
    unfold withPositions
    rw [List.mem_cons, ih]
    constructor
    · rintro (same | ⟨position, rfl, found⟩)
      · cases same
        exact ⟨0, rfl, rfl⟩
      · exact ⟨position + 1, by rw [Nat.add_assoc, Nat.add_comm 1], found⟩
    · rintro ⟨position, rfl, found⟩
      cases position with
      | zero =>
        cases found
        exact .inl rfl
      | succ position => exact .inr ⟨position, by rw [Nat.add_assoc, Nat.add_comm 1], found⟩

section Maps

variable {environment : Environment} (off : environment.mapsLikeBeans = false)

include off

/-- The elements of a container are those that marks take. -/
theorem Engine.mem_elements {value element : Value} {elements : List (Path.Mark × Value)}
    (container : elements? environment value = some elements) (mark : Path.Mark) :
    (mark, element) ∈ elements ↔ mark ≠ .plain ∧ value.Takes mark element := by
  cases value with
  | list items =>
    cases container
    rw [mem_withPositions]
    constructor
    · rintro ⟨position, rfl, found⟩
      rw [Nat.zero_add]
      exact ⟨nofun, .item found⟩
    · rintro ⟨marked, takes⟩
      cases takes with
      | whole => exact absurd rfl marked
      | item found => exact ⟨_, by rw [Nat.zero_add], found⟩
  | array items =>
    cases container
    rw [mem_withPositions]
    constructor
    · rintro ⟨position, rfl, found⟩
      rw [Nat.zero_add]
      exact ⟨nofun, .slot found⟩
    · rintro ⟨marked, takes⟩
      cases takes with
      | whole => exact absurd rfl marked
      | slot found => exact ⟨_, by rw [Nat.zero_add], found⟩
  | set items =>
    cases container
    constructor
    · intro member
      obtain ⟨item, inside, same⟩ := List.mem_map.mp member
      cases same
      exact ⟨nofun, .member inside⟩
    · rintro ⟨marked, takes⟩
      cases takes with
      | whole => exact absurd rfl marked
      | member inside => exact List.mem_map.mpr ⟨_, inside, rfl⟩
  | map entries =>
    simp only [elements?, off, Bool.false_eq_true, if_false, Option.some.injEq] at container
    cases container
    constructor
    · intro member
      obtain ⟨⟨key, item⟩, inside, same⟩ := List.mem_map.mp member
      cases same
      exact ⟨nofun, .entry inside⟩
    · rintro ⟨marked, takes⟩
      cases takes with
      | whole => exact absurd rfl marked
      | entry inside => exact List.mem_map.mpr ⟨_, inside, rfl⟩
  | null => cases container
  | bool _ => cases container
  | int _ => cases container
  | float _ => cases container
  | string _ => cases container
  | enum _ => cases container
  | bean _ => cases container

/-- A value that is no container has no elements. -/
theorem Engine.takes_of_whole {value element : Value} (whole : elements? environment value = none)
    {mark : Path.Mark} (takes : value.Takes mark element) : mark = .plain ∧ element = value := by
  cases takes with
  | whole => exact ⟨rfl, rfl⟩
  | item => cases whole
  | slot => cases whole
  | member => cases whole
  | entry => simp [elements?, off] at whole

theorem Engine.isBeanLike_iff (value : Value) :
    isBeanLike environment value = true ↔ ∃ ref, value = .bean ref := by
  cases value <;> simp [isBeanLike, off]

end Maps

/-! ### From a stop to the next ones -/

namespace Setting

/-- How a pass goes from a stop to another one: by which property and access, to which value, and to
which of its elements. -/
structure Way (setting : Setting) (stop : Stop) where
  property : MetaProperty
  target : CascadeTarget
  access : Access
  value : Value
  mark : Path.Mark
  ref : BeanRef

/-- The way can be gone. -/
structure Way.Open {setting : Setting} {stop : Stop} (way : setting.Way stop) : Prop where
  property : way.property ∈ stop.metadata.properties
  target : way.property.cascade = some way.target
  access : way.access ∈ way.property.cascadeAccesses
  allowed : setting.isOpen (setting.site stop (some way.property.name)) way.access.kind = .ok true
  read : way.access.read setting.environment.heap stop.bean = .ok way.value
  takes : way.value.Takes way.mark (.bean way.ref)

/-- Where the way ends, or the reason why it ends nowhere. -/
def Way.ending {setting : Setting} {stop : Stop} (way : setting.Way stop) :
    Except ValidationError Stop :=
  setting.stopAt way.target ((stop.path.add way.property.name).markLeaf way.mark) (.bean way.ref)

theorem value_eq_ok {setting : Setting} {site : Site} {access : Access} {value : Value} :
    setting.value site access = .ok value
      ↔ access.read setting.environment.heap site.bean = .ok value := by
  unfold Setting.value
  cases access.read setting.environment.heap site.bean <;> simp

/-- The path of a property has a plain leaf. -/
theorem leaf_site (setting : Setting) (stop : Stop) (name : String) :
    (setting.site stop (some name)).path.leaf.mark = .plain := by
  simp [site, Path.add, Path.Node.named]

/-- The parts of a related value that a cascade goes on with: the elements of a container, else the
value itself. -/
def parts (setting : Setting) (value : Value) : List (Path.Mark × Value) :=
  match Engine.elements? setting.environment value with
  | some elements => elements
  | none => [(.plain, value)]

section Inversions

variable {setting : Setting}

/-- The stops at a related value are at parts of it. -/
theorem exists_part_of_mem_sights {target : CascadeTarget} {path : Path} {value : Value}
    (plain : path.leaf.mark = .plain) {next : Except ValidationError Stop}
    (member : next ∈ setting.sights target path value) :
    ∃ mark element, (mark, element) ∈ setting.parts value
      ∧ Engine.isBeanLike setting.environment element = true
      ∧ next = setting.stopAt target (path.markLeaf mark) element := by
  have seen : ∀ {path element}, next ∈ setting.sight target path element →
      Engine.isBeanLike setting.environment element = true
        ∧ next = setting.stopAt target path element := by
    intro path element inside
    unfold sight at inside
    split at inside
    · exact ⟨‹_›, List.mem_singleton.mp inside⟩
    · cases inside
  unfold sights at member
  unfold parts
  cases container : Engine.elements? setting.environment value with
  | some elements =>
    rw [container] at member
    obtain ⟨⟨mark, element⟩, isPart, inside⟩ := List.mem_flatMap.mp member
    exact ⟨mark, element, isPart, seen inside⟩
  | none =>
    rw [container] at member
    have unmarked : path.markLeaf .plain = path := by
      rw [← plain]
      rfl
    refine ⟨.plain, value, List.mem_singleton_self _, ?_⟩
    rw [unmarked]
    exact seen member

/-- What a stop leads to is at a part of what a cascaded property holds. -/
theorem exists_sights_of_onward {stop next : Stop} (member : .ok next ∈ setting.onward stop) :
    ∃ property ∈ stop.metadata.properties, ∃ target, property.cascade = some target
      ∧ ∃ access ∈ property.cascadeAccesses,
        setting.isOpen (setting.site stop (some property.name)) access.kind = .ok true
        ∧ ∃ value, access.read setting.environment.heap stop.bean = .ok value
          ∧ .ok next ∈ setting.sights target (setting.site stop (some property.name)).path value := by
  obtain ⟨property, isProperty, leading⟩ := List.mem_flatMap.mp member
  unfold leadsOf at leading
  cases cascaded : property.cascade with
  | none => simp [cascaded] at leading
  | some target =>
    simp only [cascaded, List.mem_flatMap] at leading
    obtain ⟨access, way, leading⟩ := leading
    refine ⟨property, isProperty, target, cascaded, access, way, ?_⟩
    unfold leads at leading
    cases allowed : setting.isOpen (setting.site stop (some property.name)) access.kind with
    | error error => simp [allowed] at leading
    | ok answer =>
      cases answer with
      | false => simp [allowed] at leading
      | true =>
        simp only [allowed] at leading
        cases read : setting.value (setting.site stop (some property.name)) access with
        | error error => simp [read] at leading
        | ok value =>
          simp only [read] at leading
          exact ⟨rfl, value, value_eq_ok.mp read, leading⟩

end Inversions

variable {setting : Setting} (off : setting.environment.mapsLikeBeans = false)

include off

/-- The stops at a related value are those at the beans that marks take. -/
theorem mem_sights {target : CascadeTarget} {path : Path} {value : Value}
    (plain : path.leaf.mark = .plain) {stop : Except ValidationError Stop} :
    stop ∈ setting.sights target path value
      ↔ ∃ mark ref, value.Takes mark (.bean ref)
        ∧ stop = setting.stopAt target (path.markLeaf mark) (.bean ref) := by
  have seen : ∀ path element, stop ∈ setting.sight target path element
      ↔ ∃ ref, element = .bean ref ∧ stop = setting.stopAt target path (.bean ref) := by
    intro path element
    unfold sight
    by_cases bean : Engine.isBeanLike setting.environment element = true
    · obtain ⟨ref, rfl⟩ := (Engine.isBeanLike_iff off element).mp bean
      rw [if_pos bean, List.mem_singleton]
      exact ⟨fun same => ⟨ref, rfl, same⟩, fun ⟨_, same, at_stop⟩ => by cases same; exact at_stop⟩
    · rw [if_neg bean]
      refine ⟨nofun, fun ⟨ref, same, _⟩ => ?_⟩
      exact absurd ((Engine.isBeanLike_iff off element).mpr ⟨ref, same⟩) bean
  unfold sights
  cases container : Engine.elements? setting.environment value with
  | some elements =>
    simp only [List.mem_flatMap, seen]
    constructor
    · rintro ⟨⟨mark, element⟩, member, ref, rfl, same⟩
      exact ⟨mark, ref, ((Engine.mem_elements off container mark).mp member).2, same⟩
    · rintro ⟨mark, ref, takes, same⟩
      refine ⟨(mark, .bean ref), (Engine.mem_elements off container mark).mpr ⟨?_, takes⟩, ref, rfl,
        same⟩
      rintro rfl
      cases takes
      cases container
  | none =>
    rw [seen]
    constructor
    · rintro ⟨ref, rfl, same⟩
      refine ⟨.plain, ref, .whole _, ?_⟩
      rw [same, ← plain]
      rfl
    · rintro ⟨mark, ref, takes, same⟩
      obtain ⟨rfl, whole⟩ := Engine.takes_of_whole off container takes
      refine ⟨ref, whole.symm, ?_⟩
      rw [same, ← plain]
      rfl

/-- **The stops that a stop leads to are the ends of the open ways from it.** -/
theorem mem_onward {stop next : Stop} :
    .ok next ∈ setting.onward stop ↔ ∃ way : setting.Way stop, way.Open ∧ way.ending = .ok next := by
  constructor
  · intro leads
    obtain ⟨property, member, target, cascaded, access, way, allowed, value, read, leading⟩ :=
      exists_sights_of_onward leads
    obtain ⟨mark, ref, takes, same⟩ :=
      (mem_sights off (leaf_site setting stop property.name)).mp leading
    exact ⟨⟨property, target, access, value, mark, ref⟩,
      ⟨member, cascaded, way, allowed, read, takes⟩, same.symm⟩
  · rintro ⟨way, opened, same⟩
    refine List.mem_flatMap.mpr ⟨way.property, opened.property, ?_⟩
    unfold leadsOf
    rw [opened.target]
    refine List.mem_flatMap.mpr ⟨way.access, opened.access, ?_⟩
    have read : setting.value (setting.site stop (some way.property.name)) way.access
        = .ok way.value := value_eq_ok.mpr opened.read
    unfold leads
    simp only [opened.allowed, read]
    exact (mem_sights off (leaf_site setting stop way.property.name)).mpr
      ⟨way.mark, way.ref, opened.takes, same.symm⟩

/-- A pass starts at a root that is validated as a whole, or at the beans that marks take of it. -/
theorem mem_starts {root : Value} {metadata : Option MetaBean} {stop : Stop} :
    .ok stop ∈ setting.starts root metadata
      ↔ (∃ known, metadata = some known ∧ stop = ⟨root, known, .root⟩)
        ∨ metadata = none ∧ ∃ mark ref, root.Takes mark (.bean ref)
          ∧ .ok stop = setting.stopAt .dynamic (Path.root.markLeaf mark) (.bean ref) := by
  unfold starts
  cases metadata with
  | some known => simp
  | none => simpa using mem_sights off rfl

end Setting

/-! ### Answers at the stops of a pass -/

namespace Path

/-- The name of the leaf comes last in the text. -/
theorem exists_joinNodes_append (first : Bool) (nodes : List Node) :
    ∃ before, ∀ name, joinNodes first (nodes ++ [.named name]) = before ++ name := by
  induction nodes generalizing first with
  | nil =>
    refine ⟨if !first then "." else "", fun name => ?_⟩
    simp [joinNodes, Node.named, Node.isPlaceholder, Node.text, Mark.text]
  | cons node rest ih =>
    by_cases placeholder : node.isPlaceholder
    · obtain ⟨before, joined⟩ := ih first
      refine ⟨before, fun name => ?_⟩
      rw [List.cons_append, joinNodes, if_pos placeholder, joined]
    · obtain ⟨before, joined⟩ := ih false
      refine ⟨(if !first && node.name.isSome then "." else "") ++ node.text ++ before, fun name => ?_⟩
      rw [List.cons_append, joinNodes, if_neg placeholder, joined]
      simp only [String.append_assoc]

/-- Different properties of one bean have different texts. -/
theorem text_add_inj {path : Path} {name other : String}
    (same : (path.add name).text = (path.add other).text) : name = other := by
  have joined : ∃ before, ∀ name, (path.add name).text = before ++ name := by
    by_cases isRoot : path.isRoot
    · obtain ⟨before, joined⟩ := exists_joinNodes_append true []
      refine ⟨before, fun name => ?_⟩
      rw [add, push_of_isRoot _ isRoot]
      exact joined name
    · obtain ⟨before, joined⟩ := exists_joinNodes_append true path.nodes
      refine ⟨before, fun name => ?_⟩
      rw [add, push, if_neg isRoot, text, ← joined]
      simp [nodes]
  obtain ⟨before, joined⟩ := joined
  rw [joined, joined] at same
  exact (String.append_right_inj before).mp same

end Path

namespace Setting

variable {setting : Setting} {root : Value} {metadata : Option MetaBean}

/-- The sites of the properties of some stops. -/
def PropertySites (setting : Setting) (stops : List (Except ValidationError Stop)) (site : Site) :
    Prop :=
  ∃ stop name, .ok stop ∈ stops ∧ site = setting.site stop (some name)

theorem stopAt_eq_ok {target : CascadeTarget} {path : Path} {element : Value} {stop : Stop} :
    setting.stopAt target path element = .ok stop
      ↔ ∃ metadata, setting.metadata (targetType target element) = .ok metadata
        ∧ stop = ⟨element, metadata, path⟩ := by
  unfold stopAt
  cases setting.metadata (targetType target element) with
  | ok metadata => simp [eq_comm]
  | error error => simp

/-- Two stops of one bean are one stop. -/
theorem stop_eq_of_id {stops : List (Except ValidationError Stop)} (nodup : (idsOf stops).Nodup)
    {first second : Stop} (firstIn : .ok first ∈ stops) (secondIn : .ok second ∈ stops) {id : String}
    (idFirst : idAt (.ok first) = some id) (idSecond : idAt (.ok second) = some id) :
    first = second := by
  have apart := List.pairwise_iff_getElem.mp (List.pairwise_filterMap.mp nodup)
  obtain ⟨i, isIn, atFirst⟩ := List.getElem_of_mem firstIn
  obtain ⟨j, jsIn, atSecond⟩ := List.getElem_of_mem secondIn
  rw [← atFirst] at idFirst
  rw [← atSecond] at idSecond
  rcases Nat.lt_trichotomy i j with before | equal | after
  · exact absurd rfl (apart i j isIn jsIn before _ idFirst _ idSecond)
  · subst equal
    rw [atFirst] at atSecond
    exact Except.ok.inj atSecond
  · exact absurd rfl (apart j i jsIn isIn after _ idSecond _ idFirst)

/-- What is no bean is only a stop where it is the root. -/
theorem root_of_other (off : setting.environment.mapsLikeBeans = false) :
    ∀ stop, .ok stop ∈ setting.itinerary root metadata → stop.bean.bean? = none →
      ∃ known, metadata = some known ∧ stop = ⟨root, known, .root⟩ := by
  refine itinerary_all (fun stop start other => ?_) fun stop _ next onward other => ?_
  · cases (mem_starts off).mp start with
    | inl whole => exact whole
    | inr element =>
      obtain ⟨-, mark, ref, -, at_stop⟩ := element
      obtain ⟨_, -, rfl⟩ := stopAt_eq_ok.mp at_stop.symm
      cases other
  · obtain ⟨way, -, ending⟩ := (mem_onward off).mp onward
    obtain ⟨_, -, rfl⟩ := stopAt_eq_ok.mp ending
    cases other

/-- Where two questions at the stops of a pass have one key, they are about one property of one
bean. -/
theorem site_eq_of_key (off : setting.environment.mapsLikeBeans = false) {site other : Site}
    (isSite : setting.PropertySites (setting.itinerary root metadata) site)
    (isOther : setting.PropertySites (setting.itinerary root metadata) other) {kind : ElementKind}
    {question : Question} (keys : site.key kind question = other.key kind question) :
    site = other := by
  obtain ⟨first, name, firstIn, rfl⟩ := isSite
  obtain ⟨second, other, secondIn, rfl⟩ := isOther
  have ids : first.bean.bean?.map (·.id) = second.bean.bean?.map (·.id) :=
    congrArg AnswerKey.bean keys
  have one : first = second := by
    cases isFirst : first.bean.bean? with
    | none =>
      have isSecond : second.bean.bean? = none := by simpa [isFirst] using ids.symm
      obtain ⟨known, isKnown, rfl⟩ := root_of_other off first firstIn isFirst
      obtain ⟨again, isAgain, rfl⟩ := root_of_other off second secondIn isSecond
      rw [isKnown] at isAgain
      cases isAgain
      rfl
    | some ref =>
      have idSecond : idAt (.ok second) = some ref.id := by
        rw [idAt, ← ids, isFirst]
        rfl
      have idFirst : idAt (.ok first) = some ref.id := by
        rw [idAt, isFirst]
        rfl
      exact stop_eq_of_id (itinerary_nodup setting root metadata) firstIn secondIn idFirst idSecond
  subst one
  have names : name = other := Path.text_add_inj (congrArg AnswerKey.path keys)
  rw [names]

/-- **The answers of the resolver at the stops of a pass never mix.** -/
theorem consistent_at_stops (off : setting.environment.mapsLikeBeans = false) :
    setting.Consistent (setting.PropertySites (setting.itinerary root metadata)) :=
  fun _ _ isFirst isSecond _ _ keys => by rw [site_eq_of_key off isFirst isSecond keys]

/-- The constraints of well-formed metadata ask at the sites of properties only. -/
theorem asksWithin_propertySites {stops : List (Except ValidationError Stop)} {stop : Stop}
    (wellFormed : stop.metadata.WellFormed) (member : .ok stop ∈ stops) :
    setting.AsksWithin (setting.PropertySites stops) stop := by
  refine ⟨fun name => ⟨stop, name, member, rfl⟩, fun node own asks => ?_⟩
  rw [wellFormed.constraints node own node (.self node)] at asks
  cases asks

/-- The metadata of a stop at a related value is that of a type. -/
theorem built_of_mem_sights {target : CascadeTarget} {path : Path} {value : Value} {stop : Stop}
    (plain : path.leaf.mark = .plain) (member : .ok stop ∈ setting.sights target path value) :
    ∃ type, setting.metadata type = .ok stop.metadata := by
  obtain ⟨mark, element, -, -, same⟩ := exists_part_of_mem_sights plain member
  obtain ⟨metadata, built, rfl⟩ := stopAt_eq_ok.mp same.symm
  exact ⟨_, built⟩

/-- The metadata of a stop that another one leads to is that of a type. -/
theorem built_of_mem_onward {stop next : Stop} (member : .ok next ∈ setting.onward stop) :
    ∃ type, setting.metadata type = .ok next.metadata := by
  obtain ⟨property, -, target, -, access, -, -, value, -, leading⟩ := exists_sights_of_onward member
  exact built_of_mem_sights (leaf_site setting stop property.name) leading

/-- **The metadata of all stops is that of types.** -/
theorem itinerary_built
    (ofRoot : ∀ known, metadata = some known → ∃ type, setting.metadata type = .ok known) :
    ∀ stop, .ok stop ∈ setting.itinerary root metadata →
      ∃ type, setting.metadata type = .ok stop.metadata := by
  refine itinerary_all (fun stop start => ?_) fun stop _ next onward => built_of_mem_onward onward
  unfold starts at start
  cases metadata with
  | some known =>
    cases Except.ok.inj (List.mem_singleton.mp start)
    exact ofRoot known rfl
  | none => exact built_of_mem_sights rfl start

end Setting

end GraphValidation
