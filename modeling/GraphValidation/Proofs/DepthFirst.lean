/-
**A pass is a depth-first search.**

Where nothing keeps a pass from going on, it lists the beans of a graph depth first: a bean that was
found before is passed by; any other is listed with the metadata that its finder asks for, and what
it leads to comes before what is left.

* `DepthFirst` — the listing, with what is still to be gone through.
* `DepthFirst.nodup`, `DepthFirst.listed_iff_reached` — **the listing holds each bean that can be
  reached, once**, and no other.
* `stops_depthFirst` — the stops of a plan without errors are such a listing.
-/
import GraphValidation.Proofs.Depth

namespace GraphValidation

/-! ### The beans that a bean leads to -/

/-- The beans that a value is or holds: itself, its elements, or the values of its entries. -/
def Value.beans : Value → List BeanRef
  | .bean ref => [ref]
  | .list items => items.filterMap Value.bean?
  | .array items => items.filterMap Value.bean?
  | .set items => items.filterMap Value.bean?
  | .map entries => entries.filterMap fun entry => entry.2.bean?
  | _ => []

/-- A bean that was found, and whose metadata its finder asks for. -/
structure Lead where
  target : CascadeTarget
  ref : BeanRef

/-- The beans that the cascaded properties of a bean lead to. -/
def leadsFrom (heap : Heap) (ref : BeanRef) (metadata : MetaBean) : List Lead :=
  metadata.properties.flatMap fun property => match property.cascade with
    | none => []
    | some target => property.cascadeAccesses.flatMap fun access =>
      match access.read heap (.bean ref) with
      | .ok value => value.beans.map (Lead.mk target)
      | .error _ => []

theorem mem_leadsFrom {heap : Heap} {ref : BeanRef} {metadata : MetaBean} {lead : Lead} :
    lead ∈ leadsFrom heap ref metadata
      ↔ ∃ property ∈ metadata.properties, property.cascade = some lead.target
        ∧ ∃ access ∈ property.cascadeAccesses, ∃ value, access.read heap (.bean ref) = .ok value
          ∧ lead.ref ∈ value.beans := by
  unfold leadsFrom
  rw [List.mem_flatMap]
  constructor
  · rintro ⟨property, inside, leads⟩
    cases cascaded : property.cascade with
    | none => simp [cascaded] at leads
    | some target =>
      simp only [cascaded, List.mem_flatMap] at leads
      obtain ⟨access, way, leads⟩ := leads
      cases read : access.read heap (.bean ref) with
      | error error => simp [read] at leads
      | ok value =>
        simp only [read, List.mem_map] at leads
        obtain ⟨found, held, rfl⟩ := leads
        exact ⟨property, inside, cascaded, access, way, value, read, held⟩
  · rintro ⟨property, inside, cascaded, access, way, value, read, held⟩
    refine ⟨property, inside, ?_⟩
    simp only [cascaded, List.mem_flatMap]
    refine ⟨access, way, ?_⟩
    simp only [read, List.mem_map]
    exact ⟨lead.ref, held, rfl⟩

/-! ### Depth-first listings -/

section Listing

variable (configuration : Configuration) (heap : Heap)

/-- A depth-first listing of the beans that some leads come to, after the beans that were seen. -/
inductive DepthFirst : List String → List Lead → List (BeanRef × MetaBean) → Prop
  | done (seen : List String) : DepthFirst seen [] []
  | passed {seen : List String} {lead : Lead} {rest : List Lead}
      {listed : List (BeanRef × MetaBean)} :
    lead.ref.id ∈ seen → DepthFirst seen rest listed → DepthFirst seen (lead :: rest) listed
  | entered {seen : List String} {lead : Lead} {rest : List Lead}
      {listed : List (BeanRef × MetaBean)} {metadata : MetaBean} :
    lead.ref.id ∉ seen →
      configuration.build (Setting.targetType lead.target (.bean lead.ref)) = .ok metadata →
      DepthFirst (lead.ref.id :: seen) (leadsFrom heap lead.ref metadata ++ rest) listed →
      DepthFirst seen (lead :: rest) ((lead.ref, metadata) :: listed)

/-- The beans that can be reached from a root: those that it is or holds, and those that the cascaded
properties of a reached bean lead to, as the metadata that it is listed with has them. -/
inductive Reached (root : Value) (listed : List (BeanRef × MetaBean)) : String → Prop
  | root {ref : BeanRef} : ref ∈ root.beans → Reached root listed ref.id
  | onward {ref found : BeanRef} {metadata : MetaBean} {property : MetaProperty} {access : Access}
      {value : Value} :
    (ref, metadata) ∈ listed → Reached root listed ref.id → property ∈ metadata.properties →
      property.cascade.isSome → access ∈ property.cascadeAccesses →
      access.read heap (.bean ref) = .ok value → found ∈ value.beans →
      Reached root listed found.id

variable {configuration heap}

namespace DepthFirst

variable {seen : List String} {leads : List Lead} {listed : List (BeanRef × MetaBean)}

/-- No bean is listed that was seen before, and none twice. -/
theorem nodup (search : DepthFirst configuration heap seen leads listed) :
    (listed.map (·.1.id)).Nodup ∧ ∀ id ∈ listed.map (·.1.id), id ∉ seen := by
  induction search with
  | done seen => exact ⟨List.nodup_nil, nofun⟩
  | passed _ _ ih => exact ih
  | entered new _ _ ih =>
    obtain ⟨nodup, apart⟩ := ih
    rw [List.map_cons]
    refine ⟨List.nodup_cons.mpr ⟨fun again => apart _ again List.mem_cons_self, nodup⟩, ?_⟩
    intro id member
    cases member with
    | head => exact new
    | tail _ later => exact fun before => apart id later (List.mem_cons_of_mem _ before)

/-- All leads are come to, also those of the listed beans. -/
theorem complete (search : DepthFirst configuration heap seen leads listed) :
    (∀ lead ∈ leads, lead.ref.id ∈ seen ∨ lead.ref.id ∈ listed.map (·.1.id))
      ∧ ∀ entry ∈ listed, ∀ lead ∈ leadsFrom heap entry.1 entry.2,
        lead.ref.id ∈ seen ∨ lead.ref.id ∈ listed.map (·.1.id) := by
  induction search with
  | done seen => exact ⟨nofun, nofun⟩
  | passed known _ ih =>
    refine ⟨fun lead member => ?_, ih.2⟩
    cases member with
    | head => exact .inl known
    | tail _ later => exact ih.1 lead later
  | @entered seen lead rest listed metadata new built search ih =>
    obtain ⟨leads, entries⟩ := ih
    have here : ∀ id, id ∈ lead.ref.id :: seen ∨ id ∈ listed.map (·.1.id) →
        id ∈ seen ∨ id ∈ ((lead.ref, metadata) :: listed).map (·.1.id) := by
      rintro id (before | later)
      · cases before with
        | head => exact .inr List.mem_cons_self
        | tail _ before => exact .inl before
      · exact .inr (List.mem_cons_of_mem _ later)
    refine ⟨fun other member => ?_, fun entry member other found => ?_⟩
    · cases member with
      | head => exact .inr List.mem_cons_self
      | tail _ later => exact here _ (leads other (List.mem_append_right _ later))
    · cases member with
      | head => exact here _ (leads other (List.mem_append_left _ found))
      | tail _ later => exact here _ (entries entry later other found)

/-- A set that holds the leads, and with a listed bean its leads, holds all that is listed. -/
theorem sound {holds : String → Prop} (search : DepthFirst configuration heap seen leads listed)
    (starts : ∀ lead ∈ leads, holds lead.ref.id)
    (onward : ∀ entry ∈ listed, holds entry.1.id → ∀ lead ∈ leadsFrom heap entry.1 entry.2,
      holds lead.ref.id) : ∀ entry ∈ listed, holds entry.1.id := by
  induction search with
  | done seen => exact nofun
  | passed _ _ ih =>
    exact ih (fun lead member => starts lead (List.mem_cons_of_mem _ member)) onward
  | @entered seen lead rest listed metadata new built search ih =>
    have here := starts lead List.mem_cons_self
    have further := ih (fun other member => by
        rcases List.mem_append.mp member with found | later
        · exact onward _ List.mem_cons_self here other found
        · exact starts other (List.mem_cons_of_mem _ later))
      fun entry member => onward entry (List.mem_cons_of_mem _ member)
    intro entry member
    cases member with
    | head => exact here
    | tail _ later => exact further entry later

/-- **A listing from a root holds exactly the beans that can be reached.** -/
theorem listed_iff_reached {root : Value}
    (search : DepthFirst configuration heap [] (root.beans.map (Lead.mk .dynamic)) listed)
    (id : String) : id ∈ listed.map (·.1.id) ↔ Reached heap root listed id := by
  obtain ⟨leads, entries⟩ := search.complete
  constructor
  · intro member
    obtain ⟨entry, inside, rfl⟩ := List.mem_map.mp member
    have all : ∀ entry ∈ listed, Reached heap root listed entry.1.id := by
      refine search.sound (fun lead member => ?_) fun entry member reached lead found => ?_
      · obtain ⟨ref, held, rfl⟩ := List.mem_map.mp member
        exact .root held
      · obtain ⟨property, known, cascaded, access, way, value, read, held⟩ := mem_leadsFrom.mp found
        exact .onward member reached known (by rw [cascaded]; rfl) way read held
    exact all entry inside
  · intro reached
    induction reached with
    | root held => exact (leads _ (List.mem_map.mpr ⟨_, held, rfl⟩)).resolve_left nofun
    | onward member _ known cascaded way read held _ =>
      obtain ⟨target, cascaded⟩ := Option.isSome_iff_exists.mp cascaded
      exact (entries _ member ⟨target, _⟩
        (mem_leadsFrom.mpr ⟨_, known, cascaded, _, way, _, read, held⟩)).resolve_left nofun

end DepthFirst

end Listing

/-! ### Stops and leads -/

namespace Setting

variable {setting : Setting}

/-- Stops are those that leads ask for, on whatever paths. -/
inductive Sees (setting : Setting) : List (Except ValidationError Stop) → List Lead → Prop
  | nil : Sees setting [] []
  | cons {lead : Lead} {path : Path} {starts : List (Except ValidationError Stop)}
      {leads : List Lead} : Sees setting starts leads →
    Sees setting (setting.stopAt lead.target path (.bean lead.ref) :: starts) (lead :: leads)

theorem Sees.append {starts others : List (Except ValidationError Stop)} {leads more : List Lead}
    (first : setting.Sees starts leads) (second : setting.Sees others more) :
    setting.Sees (starts ++ others) (leads ++ more) := by
  induction first with
  | nil => exact second
  | cons _ ih => exact .cons ih

theorem Sees.flatMap {α : Type} {starts : α → List (Except ValidationError Stop)}
    {leads : α → List Lead} {items : List α}
    (sees : ∀ item ∈ items, setting.Sees (starts item) (leads item)) :
    setting.Sees (items.flatMap starts) (items.flatMap leads) := by
  induction items with
  | nil => exact .nil
  | cons item rest ih =>
    rw [List.flatMap_cons, List.flatMap_cons]
    exact (sees item List.mem_cons_self).append
      (ih fun other member => sees other (List.mem_cons_of_mem _ member))

theorem map_snd_withPositions (first : Nat) (items : List Value) :
    (Engine.withPositions first items).map (·.2) = items := by
  induction items generalizing first with
  | nil => rfl
  | cons item rest ih => rw [Engine.withPositions, List.map_cons, ih]

theorem map_filterMap_bean? (lead : BeanRef → Lead) (elements : List (Path.Mark × Value)) :
    ((elements.map (·.2)).filterMap Value.bean?).map lead
      = elements.flatMap fun element => element.2.bean?.toList.map lead := by
  induction elements with
  | nil => rfl
  | cons element rest ih =>
    rw [List.map_cons, List.filterMap_cons, List.flatMap_cons, ← ih]
    cases element.2.bean? <;> rfl

section Beans

variable (off : setting.environment.mapsLikeBeans = false)

include off

theorem beans_of_elements {value : Value} {elements : List (Path.Mark × Value)}
    (container : Engine.elements? setting.environment value = some elements) :
    value.beans = (elements.map (·.2)).filterMap Value.bean? := by
  cases value with
  | list items =>
    cases container
    rw [map_snd_withPositions]
    rfl
  | array items =>
    cases container
    rw [map_snd_withPositions]
    rfl
  | set items =>
    cases container
    simp [Value.beans, Function.comp_def]
  | map entries =>
    simp only [Engine.elements?, off, Bool.false_eq_true, if_false, Option.some.injEq] at container
    cases container
    simp [Value.beans, Function.comp_def]
  | _ => cases container

/-- The stops at an element are those that the element asks for as a bean. -/
theorem sight_sees (target : CascadeTarget) (path : Path) (element : Value) :
    setting.Sees (setting.sight target path element)
      (element.bean?.toList.map (Lead.mk target)) := by
  unfold sight
  cases element with
  | bean ref => exact @Sees.cons setting ⟨target, ref⟩ path [] [] .nil
  | map entries =>
    simp only [Engine.isBeanLike, off]
    exact .nil
  | _ => exact .nil

/-- The stops at a related value are those that its beans ask for. -/
theorem sights_sees (target : CascadeTarget) (path : Path) (value : Value) :
    setting.Sees (setting.sights target path value) (value.beans.map (Lead.mk target)) := by
  unfold sights
  cases container : Engine.elements? setting.environment value with
  | some elements =>
    rw [beans_of_elements off container, map_filterMap_bean?]
    exact .flatMap fun element _ => sight_sees off target _ element.2
  | none =>
    have alone : value.beans = value.bean?.toList := by
      cases value with
      | map entries => simp [Engine.elements?, off] at container
      | _ => first | rfl | cases container
    rw [alone]
    exact sight_sees off target path value

/-- Where the resolver allows everything and nothing fails, the stops that a bean leads to are those
that its leads ask for. -/
theorem onward_sees (allowing : setting.environment.resolver = .default) {stop : Stop} {ref : BeanRef}
    (isBean : stop.bean = .bean ref) (flawless : ∀ error, .error error ∉ setting.onward stop) :
    setting.Sees (setting.onward stop)
      (leadsFrom setting.environment.heap ref stop.metadata) := by
  have allowed : ∀ site kind, setting.isOpen site kind = .ok true := by
    intro site kind
    simp [isOpen, answer, allowing, Resolver.default]
  refine .flatMap fun property inside => ?_
  have flawless : ∀ error, .error error ∉ setting.leadsOf stop property := fun error member =>
    flawless error (List.mem_flatMap.mpr ⟨property, inside, member⟩)
  unfold leadsOf at flawless ⊢
  cases cascaded : property.cascade with
  | none => exact .nil
  | some target =>
    simp only [cascaded] at flawless ⊢
    refine .flatMap fun access way => ?_
    have flawless : ∀ error, .error error ∉ setting.leads stop property.name target access :=
      fun error member => flawless error (List.mem_flatMap.mpr ⟨access, way, member⟩)
    unfold leads at flawless ⊢
    simp only [allowed] at flawless ⊢
    cases read : access.read setting.environment.heap (.bean ref) with
    | ok value =>
      have seen : setting.value (setting.site stop (some property.name)) access = .ok value :=
        value_eq_ok.mpr (by rw [← read, ← isBean]; rfl)
      simp only [seen]
      exact sights_sees off target _ value
    | error error =>
      have failed : ∃ error, setting.value (setting.site stop (some property.name)) access
          = .error error := by
        unfold Setting.value
        rw [site, isBean, read]
        exact ⟨_, rfl⟩
      obtain ⟨error, failed⟩ := failed
      exact absurd (by simp [failed]) (flawless error)

end Beans

/-! ### Tours as searches -/

/-- The beans at stops, with their metadata. -/
def entriesOf (stops : List (Except ValidationError Stop)) : List (BeanRef × MetaBean) :=
  stops.filterMap fun stop => match stop with
    | .ok stop => stop.bean.bean?.map fun ref => (ref, stop.metadata)
    | .error _ => none

theorem entriesOf_append (first second : List (Except ValidationError Stop)) :
    entriesOf (first ++ second) = entriesOf first ++ entriesOf second := List.filterMap_append

theorem mem_walk_of_error {tour : Tour} {starts : List (Except ValidationError Stop)}
    {error : ValidationError} (member : .error error ∈ starts) (seen : List String) :
    .error error ∈ (walk tour seen starts).2 := by
  induction starts generalizing seen with
  | nil => cases member
  | cons start rest ih =>
    cases start with
    | error first =>
      cases member with
      | head => exact List.mem_cons_self
      | tail _ later => exact List.mem_cons_of_mem _ (ih later seen)
    | ok stop =>
      cases member with
      | tail _ later => exact List.mem_append_right _ (ih later _)

/-- From stops with few unseen beans a tour goes on a search: it lists what a lead comes to before
what is left. -/
def Searches (setting : Setting) (configuration : Configuration) (tour : Tour) (bound : Nat) : Prop :=
  ∀ seen stop (lead : Lead) path, setting.unseen seen ≤ bound →
    setting.stopAt lead.target path (.bean lead.ref) = .ok stop →
    (∀ error, .error error ∉ (tour seen stop).2) → ∀ rest listed,
      DepthFirst configuration setting.environment.heap (tour seen stop).1 rest listed →
      DepthFirst configuration setting.environment.heap seen (lead :: rest)
        (entriesOf (tour seen stop).2 ++ listed)

variable {configuration : Configuration}

/-- A walk goes on the searches of its starts. -/
theorem Searches.walk {tour : Tour} {bound : Nat} (searches : setting.Searches configuration tour bound)
    (fresh : Fresh tour) {starts : List (Except ValidationError Stop)} {leads : List Lead}
    (sees : setting.Sees starts leads) (seen : List String) (within : setting.unseen seen ≤ bound)
    (flawless : ∀ error, .error error ∉ (walk tour seen starts).2) {rest : List Lead}
    {listed : List (BeanRef × MetaBean)}
    (search : DepthFirst configuration setting.environment.heap (Setting.walk tour seen starts).1 rest
      listed) :
    DepthFirst configuration setting.environment.heap seen (leads ++ rest)
      (entriesOf (Setting.walk tour seen starts).2 ++ listed) := by
  -- What is left of the search is what the later starts and `rest` come to, so the walk is read
  -- from its end.
  induction sees generalizing seen with
  | nil => exact search
  | @cons lead path starts leads sees ih =>
    cases at_stop : setting.stopAt lead.target path (.bean lead.ref) with
    | error error =>
      rw [at_stop] at flawless
      exact absurd List.mem_cons_self (flawless error)
    | ok stop =>
      rw [at_stop] at flawless search
      simp only [Setting.walk] at flawless search ⊢
      have less : setting.unseen (tour seen stop).1 ≤ bound := by
        rw [fresh.remembers]
        exact Nat.le_trans (unseen_append_le _ seen) within
      have later := ih (tour seen stop).1 less
        (fun error member => flawless error (List.mem_append_right _ member)) search
      rw [entriesOf_append, List.append_assoc]
      exact searches seen stop lead path within at_stop
        (fun error member => flawless error (List.mem_append_left _ member)) _ _ later

/-- **A tour with enough levels goes on a search.** -/
theorem tour_searches (off : setting.environment.mapsLikeBeans = false)
    (allowing : setting.environment.resolver = .default)
    (builds : setting.metadata = configuration.build) {levels bound : Nat}
    (enough : bound + 2 ≤ levels) :
    setting.Searches configuration (setting.tour levels) bound := by
  -- As above, each new bean of the heap pays for its level.
  induction levels generalizing bound with
  | zero => omega
  | succ levels ih =>
    intro seen stop lead path within at_stop flawless rest listed search
    obtain ⟨metadata, built, rfl⟩ := stopAt_eq_ok.mp at_stop
    rw [builds] at built
    have isBean : (Stop.mk (.bean lead.ref) metadata path).bean.bean? = some lead.ref := rfl
    unfold tour at flawless search ⊢
    by_cases known : lead.ref.id ∈ seen
    · rw [tourOver_of_known _ isBean known] at search ⊢
      exact .passed known search
    · rw [tourOver_of_new _ isBean known] at flawless search ⊢
      refine .entered known built ?_
      let here : Stop := ⟨.bean lead.ref, metadata, path⟩
      have flawlessBelow := fun error member => flawless error (List.mem_cons_of_mem _ member)
      have flawlessHere : ∀ error, .error error ∉ setting.onward here := fun error member =>
        flawlessBelow error (mem_walk_of_error member _)
      have sees : setting.Sees (setting.onward here)
          (leadsFrom setting.environment.heap lead.ref metadata) :=
        onward_sees off allowing rfl flawlessHere
      cases found : setting.environment.heap.members? lead.ref with
      | none =>
        -- Nothing is read from a bean that is not in the heap, so it leads nowhere.
        have nowhere : setting.onward here = [] := by
          refine List.eq_nil_iff_forall_not_mem.mpr fun start member => ?_
          cases start with
          | error error => exact flawlessHere error member
          | ok next =>
            refine not_mem_onward off rfl (fun ref same => ?_) next member
            cases same
            exact found
        rw [nowhere] at sees search ⊢
        generalize leadsFrom setting.environment.heap lead.ref metadata = leads at sees ⊢
        cases sees
        exact search
      | some members =>
        have less := unseen_cons_lt found known
        have below : setting.Searches configuration (setting.tour levels)
            (setting.unseen (lead.ref.id :: seen)) := ih (by omega)
        exact below.walk (setting.fresh_tourOver fresh_nowhere levels) sees _ (Nat.le_refl _)
          flawlessBelow search

end Setting

/-! ### Plans as searches -/

section Planned

variable {validator : Validator} {heap : Heap} {root : Value} {requested : List TypeKey}
  {plan : Plan}

theorem starts_sees (off : validator.mapsLikeBeans = false)
    (planned : validator.plan heap root requested = .ok plan)
    (beans : root.bean?.isSome ∨ (Engine.elements? (validator.environment heap) root).isSome) :
    plan.setting.Sees (plan.setting.starts plan.root plan.metadata)
      (root.beans.map (Lead.mk .dynamic)) := by
  obtain ⟨metadata, groups, -, known, -, rfl⟩ := Validator.plan_eq_ok planned
  unfold Setting.starts
  cases metadata with
  | none => exact Setting.sights_sees off .dynamic .root root
  | some own =>
    obtain ⟨whole, built⟩ := rootMetadata?_eq_some known
    rw [whole] at beans
    cases root with
    | bean ref =>
      have at_root : (validator.setting heap (.bean ref) (some own)).stopAt .dynamic .root (.bean ref)
          = .ok ⟨.bean ref, own, .root⟩ := Setting.stopAt_eq_ok.mpr ⟨own, built, rfl⟩
      simp only [← at_root]
      exact @Setting.Sees.cons _ ⟨.dynamic, ref⟩ .root [] [] .nil
    | _ => simp [Value.bean?] at beans

/-- **The stops of a plan without errors are a depth-first listing** from the beans of the root. -/
theorem stops_depthFirst (off : validator.mapsLikeBeans = false)
    (allowing : validator.resolver = .default)
    (planned : validator.plan heap root requested = .ok plan)
    (beans : root.bean?.isSome ∨ (Engine.elements? (validator.environment heap) root).isSome)
    (flawless : ∀ error, .error error ∉ plan.stops) :
    DepthFirst validator.cache.configuration heap [] (root.beans.map (Lead.mk .dynamic))
      (Setting.entriesOf plan.stops) := by
  have sees := starts_sees off planned beans
  obtain ⟨metadata, groups, -, known, -, rfl⟩ := Validator.plan_eq_ok planned
  let setting := validator.setting heap root metadata
  have searches : setting.Searches validator.cache.configuration
      (setting.tour (Engine.levels setting.environment root)) (setting.unseen []) :=
    Setting.tour_searches off allowing rfl (Setting.unseen_nil_le_levels root)
  have search := searches.walk (setting.fresh_tourOver Setting.fresh_nowhere _) sees []
    (Nat.le_refl _) flawless (.done _)
  rw [List.append_nil, List.append_nil] at search
  exact search

end Planned

end GraphValidation
