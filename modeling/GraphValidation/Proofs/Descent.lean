/-
**A pass comes to everything that its stops lead to.**

A pass goes down by levels, and there are only so many of them.  Each level either enters a bean of
the heap that is new, and then goes on into its members, or goes on into the entries of a map that is
validated like a bean.  So what is left to weigh, the beans that are new and the value at the stop,
gets less from level to level, and the levels of a graph are enough for all of it.

* `Setting.load` — the weight of the beans of the heap that a pass has not come to.
* `Setting.lighter_of_onward` — what a stop leads to weighs less.
* `Setting.Exhausts` — a pass has come to some starts, and to whatever its stops lead to.
* `Setting.itinerary_exhausts` — **so it is for the passes of a validation**, whether maps are
  validated like beans or not.
-/
import GraphValidation.Proofs.Depth

namespace GraphValidation

/-! ### Parts of values -/

namespace Engine

theorem weight_le_weightAll {items : List Value} {item : Value} (member : item ∈ items) :
    weight item ≤ weightAll items := by
  induction member with
  | head rest => exact Nat.le_add_right _ _
  | tail first _ ih => exact Nat.le_trans ih (Nat.le_add_left _ _)

theorem weight_le_weightEntries {entries : List (MapKey × Value)} {key : MapKey} {value : Value}
    (member : (key, value) ∈ entries) : weight value ≤ weightEntries entries := by
  induction entries with
  | nil => cases member
  | cons entry rest ih =>
    obtain ⟨first, held⟩ := entry
    rcases List.mem_cons.mp member with same | later
    · cases same
      exact Nat.le_add_right _ _
    · exact Nat.le_trans (ih later) (Nat.le_add_left _ _)

/-- The elements of a container weigh less than the container. -/
theorem weight_lt_of_mem_elements {environment : Environment} {value : Value}
    {elements : List (Path.Mark × Value)} (container : elements? environment value = some elements)
    {element : Path.Mark × Value} (member : element ∈ elements) :
    weight element.2 < weight value := by
  have listed : ∀ items, element ∈ withPositions 0 items → weight element.2 ≤ weightAll items := by
    intro items inside
    obtain ⟨position, -, found⟩ := mem_withPositions.mp inside
    exact weight_le_weightAll (List.mem_of_getElem? found)
  cases value with
  | list items =>
    cases container
    exact Nat.lt_succ_of_le (listed items member)
  | array items =>
    cases container
    exact Nat.lt_succ_of_le (listed items member)
  | set items =>
    cases container
    obtain ⟨item, inside, rfl⟩ := List.mem_map.mp member
    exact Nat.lt_succ_of_le (weight_le_weightAll inside)
  | map entries =>
    simp only [elements?] at container
    split at container
    · cases container
    · cases container
      obtain ⟨entry, inside, rfl⟩ := List.mem_map.mp member
      exact Nat.lt_succ_of_le (weight_le_weightEntries inside)
  | _ => cases container

/-- The weight of the members of a bean. -/
def membersWeight (members : BeanMembers) : Nat :=
  weightAll (members.fields.map (·.2)) + weightAll (members.getters.map (·.2)) + 1

theorem weight_lt_of_mem_fields {members : BeanMembers} {name : String} {value : Value}
    (member : (name, value) ∈ members.fields) : weight value < membersWeight members := by
  have light : weight value ≤ weightAll (members.fields.map (·.2)) :=
    weight_le_weightAll (List.mem_map.mpr ⟨_, member, rfl⟩)
  unfold membersWeight
  omega

theorem weight_lt_of_mem_getters {members : BeanMembers} {name : String} {value : Value}
    (member : (name, value) ∈ members.getters) : weight value < membersWeight members := by
  have light : weight value ≤ weightAll (members.getters.map (·.2)) :=
    weight_le_weightAll (List.mem_map.mpr ⟨_, member, rfl⟩)
  unfold membersWeight
  omega

end Engine

/-- What is found under a key is held there. -/
theorem exists_mem_of_lookup {κ α : Type} [BEq κ] {key : κ} {value : α} {entries : List (κ × α)}
    (found : entries.lookup key = some value) : ∃ under, (under, value) ∈ entries := by
  induction entries with
  | nil => cases found
  | cons entry rest ih =>
    rw [List.lookup_cons] at found
    split at found
    · cases found
      exact ⟨entry.1, List.mem_cons_self⟩
    · obtain ⟨under, member⟩ := ih found
      exact ⟨under, List.mem_cons_of_mem _ member⟩

namespace Heap

variable {heap : Heap} {ref : BeanRef} {name : String} {value : Value}

theorem weight_lt_of_field? (found : heap.field? ref name = some value) :
    ∃ members, heap.members? ref = some members
      ∧ Engine.weight value < Engine.membersWeight members := by
  obtain ⟨members, known, held⟩ := Option.bind_eq_some_iff.mp found
  obtain ⟨under, member⟩ := exists_mem_of_lookup held
  exact ⟨members, known, Engine.weight_lt_of_mem_fields member⟩

theorem weight_lt_of_getter? (found : heap.getter? ref name = some value) :
    ∃ members, heap.members? ref = some members
      ∧ Engine.weight value < Engine.membersWeight members := by
  obtain ⟨members, known, held⟩ := Option.bind_eq_some_iff.mp found
  rcases Option.or_eq_some_iff.mp held with computed | ⟨-, plain⟩
  · obtain ⟨under, member⟩ := exists_mem_of_lookup computed
    exact ⟨members, known, Engine.weight_lt_of_mem_getters member⟩
  · exact weight_lt_of_field? (Option.bind_eq_some_iff.mpr ⟨members, known, plain⟩)

end Heap

/-- A value that was read from another one is a part of it: of the members of a bean of the heap, or of
the value itself. -/
inductive Access.Lighter (heap : Heap) (holder value : Value) : Prop
  | null : value.isNull = true → Lighter heap holder value
  | member (ref : BeanRef) (members : BeanMembers) : holder = .bean ref →
    heap.members? ref = some members → Engine.weight value < Engine.membersWeight members →
      Lighter heap holder value
  | part : holder.bean? = none → Engine.weight value < Engine.weight holder →
    Lighter heap holder value

namespace Access

variable {heap : Heap} {holder value : Value}

/-- What is found among the entries of a map, or null. -/
theorem lighter_of_entries {entries : List (MapKey × Value)} {found : Option Value}
    (held : ∀ value, found = some value → ∃ key, (key, value) ∈ entries) :
    Lighter heap (.map entries) (found.getD .null) := by
  cases known : found with
  | none => exact .null rfl
  | some value =>
    obtain ⟨key, member⟩ := held value known
    exact .part rfl (Nat.lt_succ_of_le (Engine.weight_le_weightEntries member))

theorem lighter_of_readProperty {access : Access} {name : String} {member : BeanRef → Option Value}
    (held : ∀ ref value, member ref = some value → ∃ members, heap.members? ref = some members
      ∧ Engine.weight value < Engine.membersWeight members)
    (read : access.readProperty name member holder = .ok value) : Lighter heap holder value := by
  unfold readProperty at read
  cases holder with
  | bean ref =>
    cases found : member ref with
    | none => simp [found] at read
    | some own =>
      simp only [found] at read
      cases read
      obtain ⟨members, known, light⟩ := held ref value found
      exact .member ref members rfl known light
  | map entries =>
    cases read
    exact lighter_of_entries fun value found => exists_mem_of_lookup found
  | _ => cases read

theorem exists_mem_of_lookupEntry {entries : List (MapKey × Value)} {key : MapKey}
    {enumKeys : Option TypeKey} (found : lookupEntry entries key enumKeys = some value) :
    ∃ under, (under, value) ∈ entries := by
  have byTest : ∀ test, (entries.find? test).map (·.2) = some value →
      ∃ under, (under, value) ∈ entries := by
    intro test found
    obtain ⟨entry, known, rfl⟩ := Option.map_eq_some_iff.mp found
    exact ⟨entry.1, List.mem_of_find?_eq_some known⟩
  unfold lookupEntry at found
  split at found
  · exact byTest _ found
  · split at found
    next known => exact exists_mem_of_lookup (known.trans found)
    next => exact byTest _ found

/-- The elements at a position of some items, or null. -/
theorem lighter_of_readPosition {items : List Value} (index : Nat) (plain : holder.bean? = none)
    (weighs : Engine.weightAll items < Engine.weight holder) :
    Lighter heap holder (readPosition index items) := by
  unfold readPosition
  cases found : items[index]? with
  | none => exact .null rfl
  | some value =>
    exact .part plain (Nat.lt_of_le_of_lt
      (Engine.weight_le_weightAll (List.mem_of_getElem? found)) weighs)

/-- **What is read from a value is a part of it.** -/
theorem lighter_of_read {access : Access} (read : access.read heap holder = .ok value) :
    Lighter heap holder value := by
  cases access with
  | field name declared =>
    exact lighter_of_readProperty (fun _ _ found => Heap.weight_lt_of_field? found) read
  | getter property declared =>
    exact lighter_of_readProperty (fun _ _ found => Heap.weight_lt_of_getter? found) read
  | position index =>
    cases holder with
    | list items =>
      cases read
      exact lighter_of_readPosition index rfl (Nat.lt_succ_self _)
    | array items =>
      cases read
      exact lighter_of_readPosition index rfl (Nat.lt_succ_self _)
    | set items =>
      cases read
      exact lighter_of_readPosition index rfl (Nat.lt_succ_self _)
    | _ => cases read
  | entry key enumKeys =>
    cases holder with
    | map entries =>
      cases read
      exact lighter_of_entries fun value found => exists_mem_of_lookupEntry found
    | _ => cases read
  | parameter => cases read

end Access

namespace Setting

variable {setting : Setting}

/-! ### What is left to weigh -/

/-- The weight of the beans that are not among some. -/
def loadOf (seen : List String) : List BeanMembers → Nat
  | [] => 0
  | members :: rest =>
    (if seen.contains members.ref.id then 0 else Engine.membersWeight members) + loadOf seen rest

/-- The weight of the beans of the heap that a pass has not come to. -/
def load (setting : Setting) (seen : List String) : Nat :=
  loadOf seen setting.environment.heap.beans

theorem loadOf_append_le (more seen : List String) (beans : List BeanMembers) :
    loadOf (more ++ seen) beans ≤ loadOf seen beans := by
  induction beans with
  | nil => exact Nat.le_refl _
  | cons members rest ih =>
    simp only [loadOf, List.contains_append, Bool.or_eq_true]
    split <;> split <;> first | omega | simp_all

/-- A bean that is new is a load no more. -/
theorem loadOf_cons_le {seen : List String} {beans : List BeanMembers} {members : BeanMembers}
    (member : members ∈ beans) (new : members.ref.id ∉ seen) :
    loadOf (members.ref.id :: seen) beans + Engine.membersWeight members ≤ loadOf seen beans := by
  induction beans with
  | nil => cases member
  | cons first rest ih =>
    have lighter := loadOf_append_le [members.ref.id] seen [first]
    have lighterRest := loadOf_append_le [members.ref.id] seen rest
    simp only [loadOf, List.singleton_append, Nat.add_zero] at lighter lighterRest ⊢
    rcases List.mem_cons.mp member with rfl | later
    · have unknown : seen.contains members.ref.id = false := by simpa using new
      simp only [List.contains_cons, beq_self_eq_true, Bool.true_or, if_true, unknown,
        Bool.false_eq_true, if_false]
      omega
    · have below := ih later
      omega

theorem loadOf_nil (heap : Heap) : loadOf [] heap.beans = Engine.heapWeight heap := by
  have summed : ∀ (beans : List BeanMembers) (total : Nat),
      beans.foldl (fun total members =>
        total + Engine.weightAll (members.fields.map (·.2))
          + Engine.weightAll (members.getters.map (·.2)) + 1) total = total + loadOf [] beans := by
    intro beans
    induction beans with
    | nil => exact fun total => rfl
    | cons members rest ih =>
      intro total
      rw [List.foldl_cons, ih]
      simp only [loadOf, List.contains_nil, Bool.false_eq_true, if_false, Engine.membersWeight]
      omega
  rw [Engine.heapWeight, summed, Nat.zero_add]

/-! ### What a stop leads to -/

/-- The stops at a related value weigh no more than the value, which is not null. -/
theorem weight_of_mem_sights {target : CascadeTarget} {path : Path} {value : Value} {stop : Stop}
    (plain : path.leaf.mark = .plain) (member : .ok stop ∈ setting.sights target path value) :
    value.isNull = false ∧ Engine.weight stop.bean ≤ Engine.weight value := by
  obtain ⟨mark, element, part, beanLike, same⟩ := exists_part_of_mem_sights plain member
  obtain ⟨metadata, -, rfl⟩ := stopAt_eq_ok.mp same.symm
  unfold parts at part
  cases container : Engine.elements? setting.environment value with
  | none =>
    rw [container] at part
    cases List.mem_singleton.mp part
    refine ⟨?_, Nat.le_refl _⟩
    cases value <;> first | rfl | simp [Engine.isBeanLike] at beanLike
  | some elements =>
    rw [container] at part
    refine ⟨?_, Nat.le_of_lt (Engine.weight_lt_of_mem_elements container part)⟩
    cases value <;> first | rfl | cases container

/-- What a stop leads to was read on its bean. -/
theorem exists_read_of_onward {stop next : Stop} (onward : .ok next ∈ setting.onward stop) :
    ∃ (access : Access) (value : Value),
      access.read setting.environment.heap stop.bean = .ok value
        ∧ value.isNull = false ∧ Engine.weight next.bean ≤ Engine.weight value := by
  obtain ⟨property, -, target, -, access, -, -, value, read, leading⟩ :=
    exists_sights_of_onward onward
  exact ⟨access, value, read, weight_of_mem_sights (leaf_site setting stop property.name) leading⟩

/-- **What a stop leads to weighs less**: of a bean that is new the members are left, and of anything
else a part. -/
theorem lighter_of_onward {stop next : Stop} (onward : .ok next ∈ setting.onward stop)
    (seen : List String) :
    (∀ ref, stop.bean.bean? = some ref → ref.id ∉ seen →
        setting.load (ref.id :: seen) + Engine.weight next.bean < setting.load seen)
      ∧ (stop.bean.bean? = none → Engine.weight next.bean < Engine.weight stop.bean) := by
  obtain ⟨access, value, read, notNull, light⟩ := exists_read_of_onward onward
  cases Access.lighter_of_read read with
  | null isNull =>
    rw [isNull] at notNull
    cases notNull
  | member own members holds known lighter =>
    refine ⟨fun ref isBean new => ?_, fun other => ?_⟩
    · rw [holds] at isBean
      cases isBean
      have same : members.ref.id = own.id := by
        simpa [BeanRef.same] using List.find?_some known
      have less : loadOf (own.id :: seen) setting.environment.heap.beans
          + Engine.membersWeight members ≤ loadOf seen setting.environment.heap.beans :=
        same ▸ loadOf_cons_le (List.mem_of_find?_eq_some known) (same ▸ new)
      unfold load
      omega
    · rw [holds] at other
      cases other
  | part plain lighter =>
    refine ⟨fun ref isBean => ?_, fun _ => Nat.lt_of_le_of_lt light lighter⟩
    rw [plain] at isBean
    cases isBean

/-! ### Enough levels -/

/-- A pass has come to a start: it lists it, or it knows the bean at it. -/
def ComesTo (result : List String × List (Except ValidationError Stop))
    (start : Except ValidationError Stop) : Prop :=
  start ∈ result.2 ∨ ∃ id ∈ result.1, idAt start = some id

theorem ComesTo.mono {result more : List String × List (Except ValidationError Stop)}
    {start : Except ValidationError Stop} (comes : ComesTo result start)
    (knows : ∀ id ∈ result.1, id ∈ more.1) (lists : ∀ stop ∈ result.2, stop ∈ more.2) :
    ComesTo more start :=
  comes.imp (lists start) fun ⟨id, known, same⟩ => ⟨id, knows id known, same⟩

/-- A pass has come to some starts, and to whatever the stops that it lists lead to. -/
structure Exhausts (setting : Setting) (starts : List (Except ValidationError Stop))
    (result : List String × List (Except ValidationError Stop)) : Prop where
  starts : ∀ start ∈ starts, ComesTo result start
  onward : ∀ stop, .ok stop ∈ result.2 → ∀ next ∈ setting.onward stop, ComesTo result next

/-- A walk over starts that are light enough exhausts them, if the tours from them do. -/
theorem walk_exhausts {tour : Tour} {bound : Nat} (fresh : Fresh tour)
    (exhausts : ∀ seen stop, setting.load seen + Engine.weight stop.bean < bound →
      setting.Exhausts [.ok stop] (tour seen stop))
    {starts : List (Except ValidationError Stop)} {seen : List String}
    (light : ∀ stop, .ok stop ∈ starts → setting.load seen + Engine.weight stop.bean < bound) :
    setting.Exhausts starts (walk tour seen starts) := by
  induction starts generalizing seen with
  | nil => exact ⟨nofun, nofun⟩
  | cons start rest ih =>
    have lightRest := fun stop member => light stop (List.mem_cons_of_mem start member)
    cases start with
    | error error =>
      have later := ih lightRest
      have onRest : ∀ {next}, ComesTo (walk tour seen rest) next →
          ComesTo (walk tour seen (.error error :: rest)) next :=
        fun comes => comes.mono (fun _ known => known) fun _ => List.mem_cons_of_mem _
      refine ⟨fun start member => ?_, fun stop member next leads => ?_⟩
      · rcases List.mem_cons.mp member with rfl | member
        · exact .inl List.mem_cons_self
        · exact onRest (later.starts start member)
      · rcases List.mem_cons.mp member with same | member
        · cases same
        · exact onRest (later.onward stop member next leads)
    | ok first =>
      have here := exhausts seen first (light first List.mem_cons_self)
      have less : setting.load (tour seen first).1 ≤ setting.load seen := by
        rw [fresh.remembers]
        exact loadOf_append_le _ seen _
      have later := @ih (tour seen first).1 fun stop member =>
        Nat.lt_of_le_of_lt (Nat.add_le_add_right less _) (lightRest stop member)
      have ofFirst : ∀ {next}, ComesTo (tour seen first) next →
          ComesTo (walk tour seen (.ok first :: rest)) next := by
        refine fun comes => comes.mono (fun id known => ?_) fun _ => List.mem_append_left _
        simp only [walk]
        rw [fresh.walk_remembers]
        exact List.mem_append_right _ known
      have ofRest : ∀ {next}, ComesTo (walk tour (tour seen first).1 rest) next →
          ComesTo (walk tour seen (.ok first :: rest)) next :=
        fun comes => comes.mono (fun _ known => known) fun _ => List.mem_append_right _
      refine ⟨fun start member => ?_, fun stop member next leads => ?_⟩
      · rcases List.mem_cons.mp member with rfl | member
        · exact ofFirst (here.starts _ List.mem_cons_self)
        · exact ofRest (later.starts start member)
      · rcases List.mem_append.mp member with inFirst | inRest
        · exact ofFirst (here.onward stop inFirst next leads)
        · exact ofRest (later.onward stop inRest next leads)

/-- A stop with all that it leads to. -/
theorem Exhausts.cons {stop : Stop} {known : List String}
    {below : List String × List (Except ValidationError Stop)}
    (exhausts : setting.Exhausts (setting.onward stop) below) (same : below.1 = known) :
    setting.Exhausts [.ok stop] (known, .ok stop :: below.2) := by
  have further : ∀ {next}, ComesTo below next → ComesTo (known, .ok stop :: below.2) next :=
    fun comes => comes.mono (fun _ => same ▸ id) fun _ => List.mem_cons_of_mem _
  refine ⟨fun start member => ?_, fun other member next leads => ?_⟩
  · obtain rfl := List.mem_singleton.mp member
    exact .inl List.mem_cons_self
  · rcases List.mem_cons.mp member with here | member
    · cases here
      exact further (exhausts.starts next leads)
    · exact further (exhausts.onward other member next leads)

/-- **With enough levels a tour exhausts its stop**, whatever lies below them. -/
theorem tourOver_exhausts {bottom : Tour} (fresh : Fresh bottom) {levels : Nat} {seen : List String}
    {stop : Stop} (enough : setting.load seen + Engine.weight stop.bean < levels) :
    setting.Exhausts [.ok stop] (setting.tourOver bottom levels seen stop) := by
  induction levels generalizing seen stop with
  | zero => exact absurd enough (Nat.not_lt_zero _)
  | succ levels ih =>
    have below : ∀ later : List String, (∀ next, .ok next ∈ setting.onward stop →
        setting.load later + Engine.weight next.bean < levels) →
          setting.Exhausts (setting.onward stop)
            (walk (setting.tourOver bottom levels) later (setting.onward stop)) :=
      fun later light => walk_exhausts (setting.fresh_tourOver fresh levels) (fun _ _ => ih) light
    cases isBean : stop.bean.bean? with
    | none =>
      rw [tourOver_of_other _ isBean]
      refine (below seen fun next onward => ?_).cons rfl
      have lighter := (lighter_of_onward onward seen).2 isBean
      omega
    | some ref =>
      by_cases known : ref.id ∈ seen
      · rw [tourOver_of_known _ isBean known]
        refine ⟨fun start member => ?_, nofun⟩
        obtain rfl := List.mem_singleton.mp member
        exact .inr ⟨ref.id, known, by rw [idAt, isBean]; rfl⟩
      · rw [tourOver_of_new _ isBean known]
        refine (below (ref.id :: seen) fun next onward => ?_).cons rfl
        have lighter := (lighter_of_onward onward seen).1 ref isBean known
        omega

/-- **The pass of a validation has come to whatever its stops lead to.** -/
theorem itinerary_exhausts (setting : Setting) (root : Value) (metadata : Option MetaBean) :
    setting.Exhausts (setting.starts root metadata)
      (idsOf (setting.itinerary root metadata), setting.itinerary root metadata) := by
  have fresh := setting.fresh_tourOver fresh_nowhere (Engine.levels setting.environment root)
  have light : ∀ stop, .ok stop ∈ setting.starts root metadata →
      setting.load [] + Engine.weight stop.bean < Engine.levels setting.environment root := by
    intro stop start
    have weighs : Engine.weight stop.bean ≤ Engine.weight root := by
      unfold starts at start
      cases metadata with
      | some known =>
        cases Except.ok.inj (List.mem_singleton.mp start)
        exact Nat.le_refl _
      | none => exact (weight_of_mem_sights rfl start).2
    unfold load Engine.levels
    rw [loadOf_nil]
    omega
  have exhausts := walk_exhausts fresh (fun _ _ => tourOver_exhausts fresh_nowhere) light
  have same := fresh.walk_remembers [] (setting.starts root metadata)
  rw [List.append_nil] at same
  have known : ∀ {next}, ComesTo (walk (setting.tour (Engine.levels setting.environment root)) []
      (setting.starts root metadata)) next →
        ComesTo (idsOf (setting.itinerary root metadata), setting.itinerary root metadata) next := by
    refine fun comes => comes.mono (fun id inside => ?_) fun _ listed => listed
    rw [tour, same] at inside
    exact List.mem_reverse.mp inside
  exact ⟨fun start member => known (exhausts.starts start member),
    fun stop member next leads => known (exhausts.onward stop member next leads)⟩

end Setting

end GraphValidation
