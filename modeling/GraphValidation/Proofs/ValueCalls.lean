/-
**Validating a value in place of a property.**

Where there is no bean, a given value stands for every property, and there is nothing that could
remember which constraints have been evaluated: each is evaluated as often as a group asks for it.

* `Context.Offers` — a value stands in place of what would be read.
* `Setting.callValue` — the constraints of one property on a value, for some groups.
* `validateValue_shows` — **validating a value evaluates the constraints of the property on it**.
-/
import GraphValidation.Proofs.Rows

namespace GraphValidation

/-- Where a value is validated without a bean. -/
def Stop.vacant (metadata : MetaBean) : Stop := ⟨.null, metadata, .root⟩

namespace Setting

variable (setting : Setting)

/-- Validates a constraint on a value, if it belongs to the group. -/
def consider (metadata : MetaBean) (value : Value) (group : TypeKey) (duty : Duty) : Entry Unit :=
  let site := setting.site (.vacant metadata) duty.place.property
  if duty.belongs setting.environment.types group then
    Entry.note site group (judge setting.environment site duty.place value duty.node)
  else pure ()

/-- Validates the constraints of a property on a value in a group. -/
def sweepValue (metadata : MetaBean) (property : MetaProperty) (value : Value) (group : TypeKey) :
    Entry Unit :=
  Entry.each (setting.consider metadata value group)
    (dutiesFrom metadata.type (some property.name) 0 property.constraints)

/-- Validates the constraints of a property on a value for each plain group, and for each sequence
up to its first violated group. -/
def callValue (metadata : MetaBean) (property : MetaProperty) (value : Value) (groups : Groups) :
    Entry Unit := do
  let step := Entry.forDefault metadata (setting.sweepValue metadata property value)
  Entry.each step groups.plain
  Entry.each (Entry.upToFirst step) groups.sequences

end Setting

theorem Entry.Lengthens.consider (setting : Setting) (metadata : MetaBean) (value : Value)
    (group : TypeKey) (duty : Duty) : Lengthens (setting.consider metadata value group duty) := by
  unfold Setting.consider
  dsimp only
  split
  · exact .note _ group _
  · exact .nothing

namespace Setting

variable (setting : Setting) (metadata : MetaBean) (property : MetaProperty) (value : Value)

theorem sweepValue_lengthens (group : TypeKey) :
    (setting.sweepValue metadata property value group).Lengthens :=
  Entry.Lengthens.closed.each fun duty _ => .consider setting metadata value group duty

/-- The constraints of a property are validated on a value row by row. -/
theorem callValue_eq_rows (groups : Groups) :
    setting.callValue metadata property value groups
      = Entry.each (Entry.upToFirst (setting.sweepValue metadata property value))
          (groups.rows metadata) :=
  Entry.each_rows (setting.sweepValue_lengthens metadata property value) metadata groups

end Setting

/-! ### Steps on a value -/

/-- **A value stands in place of what would be read**, and the resolver has allowed everything. -/
structure Context.Offers (value : Value) (site : Site) (context : Context) : Prop where
  override : context.override = some value
  site : context.site = site
  vacant : context.bean = .null
  isolated : context.isolated = []
  count : context.violationCount = context.reported.length
  allowed : ∀ key answer, context.answers.lookup key = some answer → answer = true

section Steps

variable {setting : Setting} {value : Value} {site : Site} {context : Context}

/-- A step leaves the value in its place, and the group. -/
def Offering (value : Value) (site : Site) (group : TypeKey) {α : Type} : α → Context → Prop :=
  fun _ later => later.Offers value site ∧ later.group = group

theorem ask_offering (allowing : setting.environment.resolver = .default)
    (offers : context.Offers value site) (question : Question) (kind : ElementKind) :
    Tracks (Run.ask setting.environment question kind) context (pure true)
      (Offering value site context.group) := by
  cases known : context.answers.lookup (context.site.key kind question) with
  | some answer =>
    rw [offers.allowed _ _ known] at known
    exact Tracks.of_ok (ask_of_known known) rfl ⟨offers, rfl⟩
  | none =>
    have asking := ask_of_new setting known
    simp only [Setting.answer, allowing, Resolver.default] at asking
    refine Tracks.of_ok asking rfl ⟨{ offers with allowed := ?_ }, rfl⟩
    intro key answer found
    simp only [Context.answering, List.lookup_cons] at found
    split at found
    · exact (Option.some.inj found).symm
    · exact offers.allowed key answer found

theorem isTraversable_offering (allowing : setting.environment.resolver = .default)
    (offers : context.Offers value site) (access : Access) :
    Tracks (Run.isTraversable setting.environment access) context (pure true)
      (Offering value site context.group) := by
  refine Tracks.bind_of_ok (ask_offering allowing offers .reachable access.kind) ?_
  rintro middle ⟨offersMiddle, group⟩
  have asking := ask_offering allowing offersMiddle .cascadable access.kind
  rw [group] at asking
  exact asking

theorem propertyValue_offering (offers : context.Offers value site) (access : Access) :
    Tracks (Run.propertyValue setting.environment access) context (pure value)
      (Offering value site context.group) := by
  have given : Run.propertyValue setting.environment access context = .ok value context := by
    simp only [Run.propertyValue, Run.bind_apply, Run.get_apply, offers.override, Run.pure_apply]
  exact Tracks.of_ok given rfl ⟨offers, rfl⟩

theorem evaluate_offering (offers : context.Offers value site) (place : NodePlace)
    (node : ConstraintNode) :
    Tracks (Engine.evaluate setting.environment place value node) context
      (Entry.note site context.group (judge setting.environment site place value node))
      (Offering value site context.group) := by
  unfold Tracks
  rw [Engine.evaluate_apply, offers.site]
  generalize judge setting.environment site place value node = findings
  have ledger := ledger_noting offers.isolated findings
  rw [offers.site] at ledger
  unfold Context.concluding Entry.note
  rw [← ledger]
  cases findings.failure with
  | some error => exact .error error _
  | none =>
    refine .ok () _ ⟨{ offers with isolated := ?_, count := ?_ }, rfl⟩
    · simp [Context.noting, offers.isolated, countMore]
    · simp [Context.noting, offers.isolated, offers.count, Nat.add_comm]

/-- A constraint that would read a property is evaluated on the value. -/
theorem validateConstraint_offering (allowing : setting.environment.resolver = .default)
    {metadata : MetaBean} (duty : Duty) {access : Access}
    (way : duty.node.content.access = some access)
    (offers : context.Offers value (setting.site (.vacant metadata) duty.place.property)) :
    Tracks (Engine.validateConstraint setting.environment duty.place duty.node) context
      (setting.consider metadata value context.group duty)
      (Offering value (setting.site (.vacant metadata) duty.place.property) context.group) := by
  refine Tracks.after (Run.get_apply context) rfl ?_
  unfold Setting.consider Duty.belongs
  cases isMember setting.environment.types duty.node.content.groups duty.node.content.owner
      context.group with
  | false => exact Tracks.of_ok rfl rfl ⟨offers, rfl⟩
  | true =>
    have fresh : Run.markProcessed duty.place context = .ok true context := by
      rw [Run.markProcessed_apply, offers.vacant]
      rfl
    refine Tracks.after fresh rfl ?_
    simp only [Bool.not_true, Bool.false_eq_true, if_false, if_true, way]
    refine Tracks.bind_of_ok (isTraversable_offering allowing offers access) ?_
    rintro middle ⟨offersMiddle, group⟩
    rw [← group]
    refine Tracks.bind_of_ok (propertyValue_offering offersMiddle access) ?_
    rintro last ⟨offersLast, groupLast⟩
    have evaluating : Tracks (Engine.evaluate setting.environment duty.place value duty.node) last _
        (Offering value (setting.site (.vacant metadata) duty.place.property) last.group) :=
      evaluate_offering offersLast duty.place duty.node
    rw [groupLast] at evaluating
    exact evaluating

theorem validateConstraints_offering (allowing : setting.environment.resolver = .default)
    {metadata : MetaBean} (property : Option String) (nodes : List ConstraintNode) (index : Nat)
    (ways : ∀ node ∈ nodes, node.content.access.isSome)
    (offers : context.Offers value (setting.site (.vacant metadata) property)) :
    Tracks (Engine.validateConstraints setting.environment metadata.type property index nodes) context
      (Entry.each (setting.consider metadata value context.group)
        (dutiesFrom metadata.type property index nodes))
      (Offering value (setting.site (.vacant metadata) property) context.group) := by
  induction nodes generalizing context index with
  | nil => exact Tracks.of_ok rfl rfl ⟨offers, rfl⟩
  | cons node rest ih =>
    obtain ⟨access, way⟩ := Option.isSome_iff_exists.mp (ways node List.mem_cons_self)
    refine Tracks.bind (validateConstraint_offering allowing
      ⟨⟨metadata.type, property, [index]⟩, node⟩ way offers) ?_
    rintro _ middle ⟨offersMiddle, group⟩
    have others := ih (index + 1) (fun node member => ways node (List.mem_cons_of_mem _ member))
      offersMiddle
    rw [group] at others
    exact others

/-- Validating one property where a value stands in its place tracks its constraints on the value. -/
theorem validatePropertyValue_tracks (allowing : setting.environment.resolver = .default)
    {metadata : MetaBean} {property : MetaProperty}
    (known : metadata.property? property.name = some property)
    (ways : ∀ node ∈ property.constraints, node.content.access.isSome) (groups : Groups)
    (rootType : context.rootType = setting.rootType) (isolated : context.isolated = [])
    (count : context.violationCount = context.reported.length) (unanswered : context.answers = [])
    (path : context.path = .root) :
    Tracks (Engine.validatePropertyValue setting.environment metadata property.name value groups)
      context (setting.callValue metadata property value groups) fun _ _ => True := by
  let kept := Context.Offers value (setting.site (.vacant metadata) (some property.name))
  have counts : ∀ later, kept later → later.violationCount = later.reported.length :=
    fun _ holds => holds.count
  have passes : ∀ group between, kept between →
      Tracks
        (Engine.withDefaultSequence metadata
          (Engine.validateMetaProperty setting.environment metadata.type property))
        { between with visited := [], group }
        (Entry.forDefault metadata (setting.sweepValue metadata property value) group)
        fun _ later => kept later := by
    intro group between holds
    have start : kept { between with visited := [], group } := { holds with }
    refine (withDefault_tracks metadata kept counts (fun _ _ holds => { holds with })
      (fun there holds => ?_) start).weaken fun _ _ ends => ends.1
    exact validateConstraints_offering allowing (some property.name) property.constraints 0 ways holds
  unfold Engine.validatePropertyValue Engine.validateOneProperty Run.onBean Run.onProperty
  simp only [known]
  -- The call puts the value in place, leaves the bean, and goes to the property.
  refine Tracks.restoring (Tracks.after (Run.modify_apply _ context) rfl ?_) (fun _ => rfl)
    fun _ _ ends => ends
  refine Tracks.after (Run.get_apply _) rfl (Tracks.restoring
    (Tracks.after (Run.modify_apply _ _) rfl ?_) (fun _ => rfl) fun _ _ ends => ends)
  refine Tracks.restoring (Tracks.after (Run.modify_apply _ _) rfl ?_) (fun _ => rfl)
    fun _ _ ends => ends
  refine forEachGroup_tracks counts passes (fun _ _ => trivial) groups ?_
  exact {
    override := rfl
    site := by simp only [Context.site, Setting.site, Stop.vacant, rootType, path]
    vacant := rfl
    isolated
    count
    allowed := fun key answer found => by simp [unanswered] at found }

end Steps

/-! ### Calls -/

section Calls

variable {validator : Validator} {heap : Heap}

/-- **Validating a value in place of a property evaluates the constraints of the property on it.** -/
theorem validateValue_shows (allowing : validator.resolver = .default) {type : TypeKey}
    {metadata : MetaBean} (built : validator.cache.configuration.build type = .ok metadata)
    {property : MetaProperty} (member : property ∈ metadata.properties) (root value : Value)
    (requested : List TypeKey) :
    (validator.validateValue heap type property.name value requested).Shows
      (match validator.groups? requested with
        | .ok groups =>
          (validator.setting heap root (some metadata)).callValue metadata property value groups .blank
        | .error error => .error error .blank) := by
  have wellFormed := Configuration.build_wellFormed built
  have ways : ∀ node ∈ property.constraints, node.content.access.isSome := by
    intro node inside
    obtain ⟨access, -, reads⟩ := (wellFormed.properties property member).constraints node inside
    rw [reads node (.self node)]
    rfl
  let context : Context :=
    { Context.start validator.cache with cache := (validator.cache.get type).2 }
  have alike : context.cache.configuration = validator.cache.configuration :=
    MetadataCache.get_snd_configuration _ _
  have known : Run.metadataOf type (.start validator.cache) = .ok metadata context :=
    metadataOf_of_ok built
  have resolved := resolveGroups_apply requested context alike
  rw [Validator.validateValue, call_eq_outcomeAt]
  simp only [Run.bind_apply, known]
  cases asks : validator.groups? requested with
  | error error =>
    rw [asks] at resolved
    simp only [resolved]
    exact ⟨rfl, rfl, rfl⟩
  | ok groups =>
    rw [asks] at resolved
    let setting := validator.setting heap root (some metadata)
    have tracked : Tracks
        (Engine.validatePropertyValue setting.environment metadata property.name value groups)
        { context with rootType := some metadata.type }
        (setting.callValue metadata property value groups) fun _ _ => True :=
      validatePropertyValue_tracks allowing (wellFormed.property?_of_mem member) ways groups rfl rfl
        rfl rfl rfl
    simp only [resolved]
    exact outcomeAt_shows tracked

end Calls

end GraphValidation
