/-
**Which constraints run does not depend on the order of declared properties**, as long as each bean
is validated with the metadata of one type.

In another order a pass comes to shared beans by other ways, and the first way to a bean decides
with which metadata it is validated.  Where the ways agree on that, both orders validate the same
beans and find the same on each; where they do not, they still find the same on every bean that both
validate with the metadata of one type.

* `Validator.PlainCall` — a call for one plain group, with the default resolver and without
  redefined default groups, on a graph of beans.
* `mem_placeless_iff` — what such a call finds is what its metadata finds on the beans that it
  enters.
* `Outcome.Agrees`, `validate_reordered` — **what calls with reordered declarations agree on**.
* `validate_reordered_differs` — a bean that different ways lead to with different metadata.
-/
import GraphValidation.Proofs.Independence
import GraphValidation.Proofs.Location
import GraphValidation.Proofs.Placeless
import GraphValidation.Proofs.Reordering

namespace GraphValidation

/-! ### Plain calls -/

/-- A call for one plain group, with the default resolver and without redefined default groups, on a
graph of beans. -/
structure Validator.PlainCall (validator : Validator) (heap : Heap) (root : Value)
    (group : TypeKey) : Prop where
  off : validator.mapsLikeBeans = false
  allowing : validator.resolver = .default
  keeps : validator.cache.configuration.KeepsDefaults
  beans : root.bean?.isSome ∨ (Engine.elements? (validator.environment heap) root).isSome
  plain : group = .defaultGroup
    ∨ GroupRequest.sequenceOf validator.types validator.cache.configuration.groupSequence group
      = .ok none

/-- The beans that a call entered, with the types whose metadata it entered them with. -/
def Outcome.typed (outcome : Outcome) : List (BeanRef × TypeKey) :=
  outcome.listed.map fun entry => (entry.1, entry.2.type)

/-- The violations of a call without their paths. -/
def Outcome.placeless (outcome : Outcome) : List Violation :=
  outcome.heard.map Violation.placeless

/-- What the constraints of a group in some metadata find on a bean. -/
def Validator.Finds (validator : Validator) (heap : Heap) (root : Value) (group : TypeKey)
    (ref : BeanRef) (metadata : MetaBean) (violation : Violation) : Prop :=
  ∃ duty ∈ metadata.duties, duty.belongs validator.types group ∧
    violation ∈ ((validator.setting heap root none).findings
      ⟨.bean ref, metadata, .root⟩ duty).violations.map Violation.placeless

section Calls

variable {validator : Validator} {heap : Heap} {root : Value} {group : TypeKey} {plan : Plan}

theorem Validator.PlainCall.inherits (call : validator.PlainCall heap root group) :
    ∀ type metadata, validator.cache.configuration.build type = .ok metadata →
      metadata.groupSequence = none :=
  fun type _ built => Configuration.groupSequence_of_build built (call.keeps type)

theorem Validator.PlainCall.explores (call : validator.PlainCall heap root group)
    (succeeded : (validator.validate heap root [group]).failure = none) :
    (validator.validate heap root [group]).Explores validator.cache.configuration heap root group :=
  (validate_explores call.off call.allowing call.inherits call.beans call.plain).2 succeeded

/-- What a plain call that succeeds has done at the stops of its plan. -/
theorem Validator.PlainCall.journal (call : validator.PlainCall heap root group)
    (planned : validator.plan heap root [group] = .ok plan)
    (succeeded : (validator.validate heap root [group]).failure = none) :
    (∀ stop, .ok stop ∈ plan.stops → Setting.Plain stop ∧ ∀ duty ∈ stop.metadata.duties,
        duty.belongs plan.setting.environment.types group →
          (plan.setting.findings stop duty).failure = none)
      ∧ (validator.validate heap root [group]).journal.filter Event.isDeed
        = plan.stops.flatMap (plan.setting.deedsOf group) := by
  have isPlain := groups?_of_plain call.plain (groups?_of_planned planned)
  exact (journal_of_plain call.off call.inherits call.beans planned isPlain succeeded).2

/-- What was evaluated was evaluated with a duty of the group at some stop. -/
theorem Setting.exists_duty_of_evaluated {setting : Setting}
    {stops : List (Except ValidationError Stop)} {bean : Value} {path : Path} {within : TypeKey}
    {place : NodePlace}
    (deed : .evaluated bean path within place ∈ stops.flatMap (setting.deedsOf group)) :
    ∃ stop, .ok stop ∈ stops ∧ ∃ duty ∈ stop.metadata.duties,
      duty.belongs setting.environment.types group
        ∧ .evaluated bean path within place ∈ (setting.findings stop duty).places.map
          (Event.evaluated stop.bean (setting.site stop duty.place.property).path group) := by
  obtain ⟨stop, isStop, event⟩ := mem_deedsOf deed
  cases event with
  | tail _ later =>
    obtain ⟨duty, own, inside⟩ := List.mem_flatMap.mp later
    unfold evaluations at inside
    by_cases belongs : duty.belongs setting.environment.types group = true
    · rw [if_pos belongs] at inside
      exact ⟨stop, isStop, duty, own, belongs, inside⟩
    · rw [if_neg belongs] at inside
      cases inside

/-- A duty of the group that does not fail was evaluated. -/
theorem Setting.mem_deedsOf_of_duty {setting : Setting}
    (allowing : setting.environment.resolver = .default)
    {stops : List (Except ValidationError Stop)} {stop : Stop} (isStop : .ok stop ∈ stops)
    {duty : Duty} (own : duty ∈ stop.metadata.duties)
    (belongs : duty.belongs setting.environment.types group = true)
    (succeeded : (setting.findings stop duty).failure = none) :
    .evaluated stop.bean (setting.site stop duty.place.property).path group duty.place
      ∈ stops.flatMap (setting.deedsOf group) := by
  obtain ⟨rest, places, -⟩ := findings_places allowing succeeded
  refine List.mem_flatMap.mpr ⟨_, isStop, List.mem_cons_of_mem _ ?_⟩
  refine List.mem_flatMap.mpr ⟨duty, own, ?_⟩
  rw [evaluations, if_pos belongs, places]
  exact List.mem_cons_self

/-- **A call hears what the duties of its group find at its stops.** -/
theorem Validator.PlainCall.heard_iff (call : validator.PlainCall heap root group)
    (planned : validator.plan heap root [group] = .ok plan)
    (succeeded : (validator.validate heap root [group]).failure = none) (violation : Violation) :
    violation ∈ (validator.validate heap root [group]).heard
      ↔ ∃ stop, .ok stop ∈ plan.stops ∧ ∃ duty ∈ stop.metadata.duties,
          duty.belongs plan.setting.environment.types group
            ∧ violation ∈ (plan.setting.findings stop duty).violations := by
  obtain ⟨duties, journal⟩ := call.journal planned succeeded
  obtain ⟨ledger, -, traced, heard, evaluated⟩ :=
    traced_of_success call.allowing planned (groups?_of_planned planned) succeeded
  have allowing := resolver_of_planned call.allowing planned
  have orderly := stops_orderly planned
  have typed : Setting.Typed plan.stops :=
    fun stop isStop other isOther => metadata_eq_of_type planned isStop isOther
  rw [heard]
  constructor
  · intro reported
    obtain ⟨stop, isStop, duty, own, done, found⟩ := traced.found violation reported
    obtain ⟨within, done⟩ := (evaluated stop duty).mpr done
    have isDeed : Event.isDeed (.evaluated stop.bean
        (plan.setting.site stop duty.place.property).path within duty.place) = true := rfl
    have deed := List.mem_filter.mpr ⟨done, isDeed⟩
    rw [journal] at deed
    obtain ⟨other, isOther, another, others, belongs, inside⟩ :=
      Setting.exists_duty_of_evaluated deed
    rw [Setting.findings_eq_of_evaluated orderly typed isStop isOther own others inside] at found
    exact ⟨other, isOther, another, others, belongs, found⟩
  · rintro ⟨stop, isStop, duty, own, belongs, found⟩
    have deed := Setting.mem_deedsOf_of_duty allowing isStop own belongs
      ((duties stop isStop).2 duty own belongs)
    rw [← journal] at deed
    have done := (List.mem_filter.mp deed).1
    exact traced.told stop isStop duty own ((evaluated stop duty).mp ⟨group, done⟩) violation found

/-- What a duty finds at a stop is found at the root of a path as well; of the root metadata only
the type matters. -/
theorem placeless_findings_of_planned (allowing : validator.resolver = .default)
    (planned : validator.plan heap root [group] = .ok plan) {stop : Stop} {ref : BeanRef}
    (isBean : stop.bean = .bean ref) (duty : Duty) :
    (plan.setting.findings stop duty).violations.map Violation.placeless
      = ((validator.setting heap root none).findings
        ⟨.bean ref, stop.metadata, .root⟩ duty).violations.map Violation.placeless := by
  have allowing := resolver_of_planned allowing planned
  obtain ⟨metadata, groups, -, known, -, rfl⟩ := Validator.plan_eq_ok planned
  have rootType : (validator.setting heap root none).rootType
      = (validator.setting heap root metadata).rootType := by
    cases metadata with
    | none => rfl
    | some own =>
      have type := Configuration.build_type (rootMetadata?_eq_some known).2
      exact congrArg some type.symm
  refine (Setting.findings_alike ?_ ?_ ?_ ?_ ?_ ?_).violations
  · rfl
  · exact rootType
  · exact allowing
  · exact isBean.symm
  · rfl
  · rfl

/-- **What a call finds is what its metadata finds on the beans that it enters.** -/
theorem Validator.PlainCall.mem_placeless_iff (call : validator.PlainCall heap root group)
    (succeeded : (validator.validate heap root [group]).failure = none) (violation : Violation) :
    violation ∈ (validator.validate heap root [group]).placeless
      ↔ ∃ entry ∈ (validator.validate heap root [group]).listed,
          validator.Finds heap root group entry.1 entry.2 violation := by
  obtain ⟨plan, planned⟩ := planned_of_success succeeded
  obtain ⟨duties, journal⟩ := call.journal planned succeeded
  have heard := call.heard_iff planned succeeded
  rw [environment_of_planned planned] at heard
  rw [listed_of_deeds journal]
  unfold Outcome.placeless
  rw [List.mem_map]
  constructor
  · rintro ⟨whole, isHeard, rfl⟩
    obtain ⟨stop, isStop, duty, own, belongs, found⟩ := (heard whole).mp isHeard
    obtain ⟨ref, isBean⟩ := Option.isSome_iff_exists.mp (duties stop isStop).1.bean
    refine ⟨(ref, stop.metadata), Setting.mem_entriesOf.mpr ⟨stop, isStop, isBean, rfl⟩, duty, own,
      belongs, ?_⟩
    rw [← placeless_findings_of_planned call.allowing planned (Value.eq_bean_of_bean? isBean)]
    exact List.mem_map_of_mem found
  · rintro ⟨⟨ref, metadata⟩, member, duty, own, belongs, found⟩
    obtain ⟨stop, isStop, isBean, rfl⟩ := Setting.mem_entriesOf.mp member
    rw [← placeless_findings_of_planned call.allowing planned (Value.eq_bean_of_bean? isBean)]
      at found
    obtain ⟨whole, finds, rfl⟩ := List.mem_map.mp found
    exact ⟨whole, (heard whole).mpr ⟨stop, isStop, duty, own, belongs, finds⟩, rfl⟩

/-- What is found on a bean says so. -/
theorem Validator.Finds.leafBean {ref : BeanRef} {metadata : MetaBean} {violation : Violation}
    (finds : validator.Finds heap root group ref metadata violation) :
    violation.leafBean = some ref := by
  obtain ⟨duty, -, -, found⟩ := finds
  obtain ⟨whole, inside, rfl⟩ := List.mem_map.mp found
  obtain ⟨value, reports, -⟩ := Setting.reports_of_findings inside
  obtain ⟨part, -, -, leaf, -⟩ := reports.points
  exact leaf

/-- A violation is found on a bean that the call has entered. -/
theorem Validator.PlainCall.exists_typed_of_placeless (call : validator.PlainCall heap root group)
    (succeeded : (validator.validate heap root [group]).failure = none) {violation : Violation}
    (found : violation ∈ (validator.validate heap root [group]).placeless) :
    ∃ entry ∈ (validator.validate heap root [group]).typed,
      violation.leafBean = some entry.1 := by
  obtain ⟨entry, listed, finds⟩ := (call.mem_placeless_iff succeeded violation).mp found
  exact ⟨_, List.mem_map_of_mem listed, finds.leafBean⟩

end Calls

/-! ### Reordered declarations -/

/-- The same validator with declared properties in another order. -/
structure Validator.Reordered (first second : Validator) : Prop where
  configuration : first.cache.configuration.Reordered second.cache.configuration
  resolver : second.resolver = first.resolver
  interpolator : second.interpolator = first.interpolator
  mapsLikeBeans : second.mapsLikeBeans = first.mapsLikeBeans

/-- A node in a list of constraints is a duty. -/
theorem exists_duty_of_mem {type : TypeKey} {property : Option String} {index : Nat}
    {nodes : List ConstraintNode} {node : ConstraintNode} (member : node ∈ nodes) :
    ∃ duty ∈ dutiesFrom type property index nodes, duty.node = node
      ∧ duty.place.property = property := by
  induction nodes generalizing index with
  | nil => cases member
  | cons first rest ih =>
    cases member with
    | head => exact ⟨_, List.mem_cons_self, rfl, rfl⟩
    | tail _ later =>
      obtain ⟨duty, inside, same⟩ := ih later
      exact ⟨duty, List.mem_cons_of_mem _ inside, same⟩

namespace MetaBean.Within

variable {mine yours : MetaBean}

/-- What is known within other metadata has its duties there. -/
theorem duty (within : mine.Within yours) {duty : Duty} (own : duty ∈ mine.duties) :
    ∃ other ∈ yours.duties,
      other.node = duty.node ∧ other.place.property = duty.place.property := by
  rcases MetaBean.mem_duties own with ⟨property, inside, named, node⟩ | ⟨unnamed, node⟩
  · obtain ⟨other, insideToo, name, constraints, -⟩ := within.properties property inside
    obtain ⟨another, member, same, place⟩ := exists_duty_of_mem (constraints _ node)
    refine ⟨another, List.mem_append_left _ (List.mem_flatMap.mpr ⟨other, insideToo, member⟩),
      same, ?_⟩
    rw [place, name, named]
  · obtain ⟨another, member, same, place⟩ := exists_duty_of_mem (within.constraints _ node)
    exact ⟨another, List.mem_append_right _ member, same, place.trans unnamed.symm⟩

/-- What is known within other metadata leads to the same beans there. -/
theorem lead (within : mine.Within yours) {heap : Heap} {ref : BeanRef} {lead : Lead}
    (leads : lead ∈ leadsFrom heap ref mine) :
    ∃ other ∈ leadsFrom heap ref yours, other.ref = lead.ref := by
  obtain ⟨property, inside, cascaded, access, way, value, read, held⟩ := mem_leadsFrom.mp leads
  obtain ⟨other, insideToo, -, -, cascades, ways⟩ := within.properties property inside
  obtain ⟨target, cascadedToo⟩ := Option.isSome_iff_exists.mp (cascades (by rw [cascaded]; rfl))
  exact ⟨⟨target, lead.ref⟩, mem_leadsFrom.mpr
    ⟨other, insideToo, cascadedToo, access, ways access way, value, read, held⟩, rfl⟩

end MetaBean.Within

/-- Listed metadata is that of its type. -/
theorem DepthFirst.built {configuration : Configuration} {heap : Heap} {seen : List String}
    {leads : List Lead} {listed : List (BeanRef × MetaBean)}
    (search : DepthFirst configuration heap seen leads listed) :
    ∀ entry ∈ listed, configuration.build entry.2.type = .ok entry.2 := by
  induction search with
  | done seen => exact nofun
  | passed _ _ ih => exact ih
  | entered _ built _ ih =>
    intro entry member
    cases member with
    | head =>
      rw [Configuration.build_type built]
      exact built
    | tail _ later => exact ih entry later

section Reordered

variable {first second : Validator} {heap : Heap} {root : Value} {group : TypeKey}

namespace Validator.Reordered

variable (reordered : first.Reordered second)

include reordered

theorem symm : second.Reordered first where
  configuration := reordered.configuration.symm
  resolver := reordered.resolver.symm
  interpolator := reordered.interpolator.symm
  mapsLikeBeans := reordered.mapsLikeBeans.symm

theorem types : second.types = first.types := reordered.configuration.types

theorem environment (heap : Heap) : second.environment heap = first.environment heap := by
  simp only [Validator.environment, reordered.types, reordered.resolver, reordered.interpolator,
    reordered.mapsLikeBeans]

/-- A plain call is plain in either order. -/
theorem plainCall (call : first.PlainCall heap root group) : second.PlainCall heap root group where
  off := reordered.mapsLikeBeans.trans call.off
  allowing := reordered.resolver.trans call.allowing
  keeps := reordered.configuration.keepsDefaults call.keeps
  beans := by
    rw [reordered.environment]
    exact call.beans
  plain := by
    rw [reordered.types, reordered.configuration.groupSequence]
    exact call.plain

/-- What one metadata finds on a bean, metadata that knows the same finds as well. -/
theorem finds (allowing : first.resolver = .default) {mine yours : MetaBean}
    (within : mine.Within yours) {ref : BeanRef} {violation : Violation}
    (found : first.Finds heap root group ref mine violation) :
    second.Finds heap root group ref yours violation := by
  obtain ⟨duty, own, belongs, found⟩ := found
  obtain ⟨other, member, node, property⟩ := within.duty own
  refine ⟨other, member, ?_, ?_⟩
  · rw [Duty.belongs, node, reordered.types]
    exact belongs
  · have alike : ((first.setting heap root none).findings ⟨.bean ref, mine, .root⟩ duty).Alike
        ((second.setting heap root none).findings ⟨.bean ref, yours, .root⟩ other) := by
      refine Setting.findings_alike ?_ ?_ ?_ ?_ node property
      · exact reordered.environment heap
      · rfl
      · exact allowing
      · rfl
    rw [← alike.violations]
    exact found

end Validator.Reordered

/-! ### Two calls -/

/-- What calls with reordered declarations agree on. -/
structure Outcome.Agrees (first second : Outcome) : Prop where
  /-- On a bean that both validate with the metadata of one type, both find the same. -/
  onBean : ∀ entry ∈ first.typed, entry ∈ second.typed → ∀ violation : Violation,
    violation.leafBean = some entry.1 →
      (violation ∈ first.placeless ↔ violation ∈ second.placeless)
  /-- Where each bean that both validate is validated with the metadata of one type, both validate
  the same beans and find the same. -/
  everywhere : (∀ mine ∈ first.typed, ∀ yours ∈ second.typed, mine.1.id = yours.1.id →
      mine = yours) →
    (∀ entry, entry ∈ first.typed ↔ entry ∈ second.typed)
      ∧ ∀ violation, violation ∈ first.placeless ↔ violation ∈ second.placeless

section Both

variable (call : first.PlainCall heap root group) (reordered : first.Reordered second)
  (succeeds : (first.validate heap root [group]).failure = none)
  (succeedsToo : (second.validate heap root [group]).failure = none)

include call reordered succeeds succeedsToo

/-- Where both calls enter beans with the metadata of one type, what the first one knows there is
known within the other. -/
theorem within_of_listed {ref other : BeanRef} {mine yours : MetaBean}
    (listed : (ref, mine) ∈ (first.validate heap root [group]).listed)
    (listedToo : (other, yours) ∈ (second.validate heap root [group]).listed)
    (types : mine.type = yours.type) : mine.Within yours := by
  have built := (call.explores succeeds).search.built _ listed
  have builtToo := ((reordered.plainCall call).explores succeedsToo).search.built _ listedToo
  rw [← types] at builtToo
  exact reordered.configuration.within_of_build built builtToo

/-- On a bean that both calls enter with the metadata of one type, the second one finds what the
first one finds. -/
theorem mem_placeless_of_typed {entry : BeanRef × TypeKey}
    (member : entry ∈ (first.validate heap root [group]).typed)
    (memberToo : entry ∈ (second.validate heap root [group]).typed) {violation : Violation}
    (on : violation.leafBean = some entry.1)
    (found : violation ∈ (first.validate heap root [group]).placeless) :
    violation ∈ (second.validate heap root [group]).placeless := by
  obtain ⟨⟨ref, mine⟩, listed, rfl⟩ := List.mem_map.mp member
  obtain ⟨⟨other, yours⟩, listedToo, same⟩ := List.mem_map.mp memberToo
  obtain ⟨rfl, types⟩ := Prod.mk.inj same
  have within := within_of_listed call reordered succeeds succeedsToo listed listedToo types.symm
  obtain ⟨⟨finder, metadata⟩, listedFinder, finds⟩ :=
    (call.mem_placeless_iff succeeds violation).mp found
  have isFinder : finder = other := Option.some.inj (finds.leafBean.symm.trans on)
  -- The call has entered the bean once, so it is this metadata that has found the violation.
  have isMine : (finder, metadata) = (other, mine) :=
    List.inj_on_of_nodup_map (call.explores succeeds).nodup listedFinder listed
      (congrArg BeanRef.id isFinder)
  cases isMine
  exact ((reordered.plainCall call).mem_placeless_iff succeedsToo violation).mpr
    ⟨_, listedToo, reordered.finds call.allowing within finds⟩

/-- **Where no bean is validated with the metadata of different types, the second call enters what
the first one enters.**  By following the search of the first call: the second one has come to its
starts, and with each bean that both have entered to what that bean leads to. -/
theorem mem_typed_of_apart
    (apart : ∀ mine ∈ (first.validate heap root [group]).typed,
      ∀ yours ∈ (second.validate heap root [group]).typed, mine.1.id = yours.1.id → mine = yours)
    {entry : BeanRef × TypeKey} (member : entry ∈ (first.validate heap root [group]).typed) :
    entry ∈ (second.validate heap root [group]).typed := by
  have search := (call.explores succeeds).search
  obtain ⟨starts, onward⟩ := ((reordered.plainCall call).explores succeedsToo).search.complete
  have pairs : ∀ {ref mine other yours},
      (ref, mine) ∈ (first.validate heap root [group]).listed →
      (other, yours) ∈ (second.validate heap root [group]).listed → other.id = ref.id →
      other = ref ∧ mine.type = yours.type := by
    intro ref mine other yours listed listedToo ids
    have same := apart _ (List.mem_map_of_mem listed) _ (List.mem_map_of_mem listedToo) ids.symm
    obtain ⟨rfl, types⟩ := Prod.mk.inj same
    exact ⟨rfl, types⟩
  have come : ∀ entry ∈ (first.validate heap root [group]).listed,
      entry.1.id ∈ (second.validate heap root [group]).listed.map (·.1.id) := by
    refine search.sound (fun lead start => (starts lead start).resolve_left nofun) ?_
    rintro ⟨ref, mine⟩ listed known lead leads
    obtain ⟨⟨other, yours⟩, listedToo, ids⟩ := List.mem_map.mp known
    obtain ⟨rfl, types⟩ := pairs listed listedToo ids
    have within := within_of_listed call reordered succeeds succeedsToo listed listedToo types
    obtain ⟨leadToo, leadsToo, same⟩ := within.lead leads
    rw [← same]
    exact (onward _ listedToo leadToo leadsToo).resolve_left nofun
  obtain ⟨⟨ref, mine⟩, listed, rfl⟩ := List.mem_map.mp member
  obtain ⟨⟨other, yours⟩, listedToo, ids⟩ := List.mem_map.mp (come _ listed)
  obtain ⟨rfl, types⟩ := pairs listed listedToo ids
  rw [types]
  exact List.mem_map_of_mem listedToo

end Both

/-- **Which constraints run does not depend on the order of declared properties**, on every bean
that both calls validate with the metadata of one type; and where there are no others, not at
all. -/
theorem validate_reordered (call : first.PlainCall heap root group)
    (reordered : first.Reordered second)
    (succeeds : (first.validate heap root [group]).failure = none)
    (succeedsToo : (second.validate heap root [group]).failure = none) :
    (first.validate heap root [group]).Agrees (second.validate heap root [group]) := by
  have callToo := reordered.plainCall call
  have onBean : ∀ entry ∈ (first.validate heap root [group]).typed,
      entry ∈ (second.validate heap root [group]).typed → ∀ violation : Violation,
        violation.leafBean = some entry.1 →
          (violation ∈ (first.validate heap root [group]).placeless
            ↔ violation ∈ (second.validate heap root [group]).placeless) :=
    fun entry member memberToo violation on =>
      ⟨mem_placeless_of_typed call reordered succeeds succeedsToo member memberToo on,
       mem_placeless_of_typed callToo reordered.symm succeedsToo succeeds memberToo member on⟩
  refine ⟨onBean, fun apart => ?_⟩
  have enters : ∀ entry, entry ∈ (first.validate heap root [group]).typed
      ↔ entry ∈ (second.validate heap root [group]).typed :=
    fun entry => ⟨mem_typed_of_apart call reordered succeeds succeedsToo apart,
      mem_typed_of_apart callToo reordered.symm succeedsToo succeeds
        fun mine isMine yours isYours ids => (apart yours isYours mine isMine ids.symm).symm⟩
  refine ⟨enters, fun violation => ⟨fun found => ?_, fun found => ?_⟩⟩
  · obtain ⟨entry, member, on⟩ := call.exists_typed_of_placeless succeeds found
    exact (onBean entry member ((enters entry).mp member) violation on).mp found
  · obtain ⟨entry, member, on⟩ := callToo.exists_typed_of_placeless succeedsToo found
    exact (onBean entry ((enters entry).mpr member) member violation on).mpr found

end Reordered

/-! ### Two ways to a bean -/

namespace Shared

def base : TypeKey := ⟨"Base"⟩
def sub : TypeKey := ⟨"Sub"⟩
def holder : TypeKey := ⟨"Holder"⟩

def types : TypeSystem :=
  (TypeSystem.builtin.registerAll
    [.ofClass base [], ⟨sub, .classType, some base, []⟩, .ofClass holder []]).1

def presentProperty (name : String) : PropertyDeclaration :=
  ⟨name, .field, .named .string, [Ring.presentIn .defaultGroup], false⟩

/-- Leads to a `Base`, whatever the value is. -/
def fixed : PropertyDeclaration := ⟨"fixed", .field, .named base, [], true⟩

/-- Leads to what the value is. -/
def opened : PropertyDeclaration := ⟨"open", .field, .named .object, [], true⟩

/-- A holder declares its properties in some order. -/
def configuration (properties : List PropertyDeclaration) : Configuration where
  types := types
  catalog := ⟨[Ring.present]⟩
  annotations := [⟨[.ofProperties base [presentProperty "code"],
    .ofProperties sub [presentProperty "name"], .ofProperties holder properties]⟩]
  mappings := []

def validator (properties : List PropertyDeclaration) : Validator :=
  .ofConfiguration (configuration properties) .default (fun template _ _ => template) false

def thing (type : TypeKey) : BeanRef := ⟨"thing", type⟩
def theHolder : BeanRef := ⟨"holder", holder⟩

/-- Both properties of the holder have the same value. -/
def heap (type : TypeKey) (code : Value) : Heap where
  beans :=
    [⟨thing type, [("code", code), ("name", .null)], [], true⟩,
     ⟨theHolder, [("fixed", .bean (thing type)), ("open", .bean (thing type))], [], true⟩]

theorem reordered : (validator [fixed, opened]).Reordered (validator [opened, fixed]) := by
  have holders : (BeanDeclaration.ofProperties holder [fixed, opened]).Reordered
      (.ofProperties holder [opened, fixed]) := ⟨.swap _ _ _, rfl⟩
  have same : ∀ bean : BeanDeclaration, bean.Reordered bean := fun _ => ⟨.refl _, rfl⟩
  refine ⟨⟨rfl, rfl, ?_, .nil⟩, rfl, rfl, rfl⟩
  exact .cons (.cons (same _) (.cons (same _) (.cons holders .nil))) .nil

theorem plainCall (type : TypeKey) (code : Value) :
    (validator [fixed, opened]).PlainCall (heap type code) (.bean theHolder) .defaultGroup where
  off := rfl
  allowing := rfl
  keeps := Configuration.keepsDefaults_of_silent (by decide)
  beans := .inl rfl
  plain := .inl rfl

end Shared

/-- A `Base` is validated as one by either way, so the order makes no difference. -/
theorem validate_reordered_shared :
    let one := (Shared.validator [Shared.fixed, Shared.opened]).validate
      (Shared.heap Shared.base .null) (.bean Shared.theHolder) [.defaultGroup]
    let other := (Shared.validator [Shared.opened, Shared.fixed]).validate
      (Shared.heap Shared.base .null) (.bean Shared.theHolder) [.defaultGroup]
    one.Agrees other ∧ (∀ violation, violation ∈ one.placeless ↔ violation ∈ other.placeless)
      ∧ one.heard.map (·.path.text) = ["fixed.code"]
      ∧ other.heard.map (·.path.text) = ["open.code"] := by
  intro one other
  have agrees : one.Agrees other :=
    validate_reordered (Shared.plainCall Shared.base .null) Shared.reordered
      (Option.isNone_iff_eq_none.mp (by decide +kernel))
      (Option.isNone_iff_eq_none.mp (by decide +kernel))
  have apart : ∀ mine ∈ one.typed, ∀ yours ∈ other.typed,
      mine.1.id = yours.1.id → mine = yours := by
    decide +kernel
  exact ⟨agrees, (agrees.everywhere apart).2, by decide +kernel, by decide +kernel⟩

/-- **The first way to a bean decides what is found there**: by the fixed property a `Sub` is
validated as a `Base`, and what it lacks as a `Sub` is not found by the other way any more. -/
theorem validate_reordered_differs :
    let one := (Shared.validator [Shared.fixed, Shared.opened]).validate
      (Shared.heap Shared.sub (.string "c")) (.bean Shared.theHolder) [.defaultGroup]
    let other := (Shared.validator [Shared.opened, Shared.fixed]).validate
      (Shared.heap Shared.sub (.string "c")) (.bean Shared.theHolder) [.defaultGroup]
    (Shared.validator [Shared.fixed, Shared.opened]).PlainCall
        (Shared.heap Shared.sub (.string "c")) (.bean Shared.theHolder) .defaultGroup
      ∧ (Shared.validator [Shared.fixed, Shared.opened]).Reordered
        (Shared.validator [Shared.opened, Shared.fixed])
      ∧ one.failure.isNone ∧ other.failure.isNone ∧ one.heard.map (·.path.text) = []
      ∧ other.heard.map (·.path.text) = ["open.name"] :=
  ⟨Shared.plainCall _ _, Shared.reordered, by decide +kernel, by decide +kernel, by decide +kernel,
    by decide +kernel⟩

end GraphValidation
