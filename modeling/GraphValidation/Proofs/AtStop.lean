/-
**What a validation does at a stop.**

At a stop the constraints of the bean are validated in the order of its duties, and of a redefined
default group one element after the other.  Each step tracks what the survey does at the stop.

* `validateConstraint_tracks`, `validateOwn_tracks` — one constraint, and all of a bean.
* `runSequence_tracks`, `withDefault_tracks` — a sequence stops where the ledger shows a new
  violation.
* `withDefaultSequence_tracks` — **validating a bean tracks `Setting.validateStop`**.
-/
import GraphValidation.Proofs.Tracking

namespace GraphValidation

namespace Path

/-- Only the path of the root is one that is replaced by the first node. -/
theorem eq_root_of_isRoot {path : Path} (isRoot : path.isRoot = true) : path = .root := by
  obtain ⟨⟨name, mark⟩, above⟩ := path
  simp only [Path.isRoot, Node.isPlaceholder, Bool.and_eq_true, List.isEmpty_iff,
    Option.isNone_iff_eq_none] at isRoot
  obtain ⟨rfl, rfl, plain⟩ := isRoot
  cases mark with
  | plain => rfl
  | element => cases plain
  | index _ => cases plain
  | key _ => cases plain

@[simp] theorem removeLeaf_add (path : Path) (name : String) :
    (path.add name).removeLeaf = path := by
  cases isRoot : path.isRoot with
  | false => exact removeLeaf_push _ isRoot
  | true =>
    rw [add, push_of_isRoot _ isRoot, eq_root_of_isRoot isRoot]
    rfl

end Path

section AtStop

variable {setting : Setting} {asked : Site → Prop} {context : Context} {stop : Stop}

/-- A context that stands at a stop, or at one of its properties. -/
structure Context.At (setting : Setting) (asked : Site → Prop) (stop : Stop)
    (property : Option String) (context : Context) : Prop where
  stands : context.Stands setting asked
  site : context.site = setting.site stop property

/-- The resolver may be asked where the constraints of a stop ask it. -/
def Setting.AsksWithin (setting : Setting) (asked : Site → Prop) (stop : Stop) : Prop :=
  (∀ name, asked (setting.site stop (some name))) ∧
    ∀ node ∈ stop.metadata.constraints, node.content.access.isSome →
      asked (setting.site stop none)

theorem Context.At.later {property : Option String} {later : Context}
    (here : context.At setting asked stop property) (stands : later.Stands setting asked)
    (same : later.cursor = context.cursor) : later.At setting asked stop property :=
  ⟨stands, (here.stands.site_eq stands same).trans here.site⟩

theorem Context.At.bean {property : Option String}
    (here : context.At setting asked stop property) : context.bean = stop.bean :=
  congrArg Site.bean here.site

/-! ### One constraint -/

theorem Context.At.evaluate_tracks {property : Option String}
    (here : context.At setting asked stop property) (place : NodePlace) (value : Value)
    (node : ConstraintNode) :
    Tracks (Engine.evaluate setting.environment place value node) context
      (Entry.note (setting.site stop property) context.group
        (judge setting.environment (setting.site stop property) place value node))
      (Leaves setting asked context.cursor) := by
  have evaluating := GraphValidation.evaluate_tracks here.stands place value node
  rw [here.site] at evaluating
  exact evaluating

theorem validateConstraint_tracks (consistent : setting.Consistent asked) (duty : Duty)
    (here : context.At setting asked stop duty.place.property)
    (within : duty.node.content.access.isSome → asked (setting.site stop duty.place.property)) :
    Tracks (Engine.validateConstraint setting.environment duty.place duty.node) context
      (setting.examine context.group stop duty) (Leaves setting asked context.cursor) := by
  refine Tracks.after (Run.get_apply context) rfl ?_
  unfold Setting.examine
  cases isMember setting.environment.types duty.node.content.groups duty.node.content.owner
      context.group with
  | false => exact Tracks.of_ok rfl rfl ⟨here.stands, rfl⟩
  | true =>
    have claiming := markProcessed_tracks here.stands duty.place
    rw [here.bean] at claiming
    refine Tracks.bind claiming ?_
    rintro fresh middle ⟨stands, same⟩
    cases fresh with
    | false => exact Tracks.of_ok rfl rfl ⟨stands, same⟩
    | true =>
      have there := here.later stands same
      have group : middle.group = context.group := congrArg Cursor.group same
      rw [← same, ← group]
      cases way : duty.node.content.access with
      | none =>
        rw [here.bean]
        exact there.evaluate_tracks duty.place stop.bean duty.node
      | some access =>
        have member := within (by rw [way]; rfl)
        have asking := isTraversable_tracks consistent there.stands access (there.site ▸ member)
        rw [there.site] at asking
        refine Tracks.bind asking ?_
        rintro allowed next ⟨stands, same⟩
        have onward := there.later stands same
        cases allowed with
        | false => exact Tracks.of_ok rfl rfl ⟨stands, same⟩
        | true =>
          have reading := propertyValue_tracks onward.stands access
          rw [onward.site] at reading
          refine Tracks.bind reading ?_
          rintro value last ⟨stands, sameLast⟩
          have ending := (onward.later stands sameLast).evaluate_tracks duty.place value duty.node
          have group : last.group = middle.group :=
            congrArg Cursor.group (sameLast.trans same)
          rw [sameLast, same, group] at ending
          exact ending

/-! ### All constraints of a bean -/

/-- A property of the current bean: a step on it that comes back to it comes back to the bean. -/
theorem Tracks.onProperty {step : Run Unit} {entry : Entry Unit} (name : String)
    (seen : List String) (stands : context.Stands setting asked) (outside : context.property = none)
    (inner : ∀ inside : Context, inside.Stands setting asked → inside.ledger = context.ledger →
      inside.cursor
          = { context.cursor with path := context.path.add name, property := some name } →
        Tracks step inside entry (Leaves setting asked
          { inside.cursor with visited := seen })) :
    Tracks (Run.onProperty name step) context entry
      (Leaves setting asked { context.cursor with visited := seen }) := by
  refine Tracks.restoring (Tracks.after (Run.modify_apply _ context) rfl
    (inner _ { stands with } rfl rfl)) (fun later => rfl) ?_
  rintro _ later ⟨standsLater, same⟩
  refine ⟨{ standsLater with }, ?_⟩
  have path : later.path = context.path.add name := congrArg Cursor.path same
  have others := same
  simp only [Context.cursor, Cursor.mk.injEq] at others ⊢
  obtain ⟨bean, metadata, -, -, group, visited⟩ := others
  exact ⟨bean, metadata, outside.symm, by rw [path, Path.removeLeaf_add], group, visited⟩

theorem validateConstraints_tracks (consistent : setting.Consistent asked)
    (property : Option String) (nodes : List ConstraintNode) (index : Nat)
    (here : context.At setting asked stop property)
    (within : ∀ node ∈ nodes, node.content.access.isSome → asked (setting.site stop property)) :
    Tracks (Engine.validateConstraints setting.environment stop.metadata.type property index nodes)
      context
      (Entry.each (setting.examine context.group stop)
        (dutiesFrom stop.metadata.type property index nodes))
      (Leaves setting asked context.cursor) := by
  induction nodes generalizing context index with
  | nil => exact Tracks.of_ok rfl rfl ⟨here.stands, rfl⟩
  | cons node rest ih =>
    refine Tracks.bind (validateConstraint_tracks consistent
      ⟨⟨stop.metadata.type, property, [index]⟩, node⟩ here
      (within node List.mem_cons_self)) ?_
    rintro _ middle ⟨stands, same⟩
    have rest := ih (index + 1) (here.later stands same)
      fun node member => within node (List.mem_cons_of_mem _ member)
    have group : middle.group = context.group := congrArg Cursor.group same
    rw [same, group] at rest
    exact rest

/-- Validating the constraints of a property tracks a sweep over its duties. -/
theorem propertyConstraints_tracks (consistent : setting.Consistent asked)
    (asks : setting.AsksWithin asked stop) (here : context.At setting asked stop none)
    (property : MetaProperty) :
    Tracks
      (if property.constraints.isEmpty then pure ()
        else Run.onProperty property.name
          (Engine.validateMetaProperty setting.environment stop.metadata.type property))
      context
      (Entry.each (setting.examine context.group stop)
        (dutiesFrom stop.metadata.type (some property.name) 0 property.constraints))
      (Leaves setting asked context.cursor) := by
  cases empty : property.constraints.isEmpty with
  | true =>
    rw [List.isEmpty_iff.mp empty]
    exact Tracks.of_ok rfl rfl ⟨here.stands, rfl⟩
  | false =>
    refine Tracks.onProperty property.name context.visited here.stands
      (congrArg Site.property here.site) fun inside stands _ same => ?_
    have bean : inside.bean = context.bean := congrArg Cursor.bean same
    have path : inside.path = context.path.add property.name := congrArg Cursor.path same
    have named : inside.property = some property.name := congrArg Cursor.property same
    have group : inside.group = context.group := congrArg Cursor.group same
    have visited : inside.visited = context.visited := congrArg Cursor.visited same
    have base : context.path = stop.path := congrArg Site.path here.site
    have there : inside.At setting asked stop (some property.name) :=
      ⟨stands, by
        simp only [Context.site, stands.rootType, bean, here.bean, path, named, base, Setting.site]⟩
    have tracked := validateConstraints_tracks consistent (some property.name)
      property.constraints 0 there fun _ _ _ => asks.1 property.name
    rw [group] at tracked
    exact tracked.weaken fun _ later leaves => ⟨leaves.1, by rw [leaves.2, ← visited]; rfl⟩

/-- Validating the constraints of a bean tracks a sweep over its duties. -/
theorem validateOwn_tracks (consistent : setting.Consistent asked)
    (asks : setting.AsksWithin asked stop) (here : context.At setting asked stop none) :
    Tracks (Engine.validateOwn setting.environment stop.metadata) context
      (setting.sweep stop context.group) (Leaves setting asked context.cursor) := by
  unfold Setting.sweep MetaBean.duties
  rw [Entry.each_append]
  refine Tracks.bind (Tracks.forEach_flatMap (Leaves setting asked context.cursor ())
    stop.metadata.properties ?_ ⟨here.stands, rfl⟩) ?_
  · rintro property - middle ⟨stands, same⟩
    have tracked := propertyConstraints_tracks consistent asks (here.later stands same) property
    have group : middle.group = context.group := congrArg Cursor.group same
    rw [group, same] at tracked
    exact tracked
  · rintro _ middle ⟨stands, same⟩
    have tracked := validateConstraints_tracks consistent none stop.metadata.constraints 0
      (here.later stands same) asks.2
    have group : middle.group = context.group := congrArg Cursor.group same
    rw [group, same] at tracked
    exact tracked

/-! ### Sequences -/

/-- An entry for a group, or, if that is the default group and the type redefines it, for the groups
of the sequence. -/
def Entry.forDefault (metadata : MetaBean) (entry : TypeKey → Entry Unit) (group : TypeKey) :
    Entry Unit :=
  match metadata.groupSequence with
  | some sequence => if group = .defaultGroup then Entry.upToFirst entry sequence else entry group
  | none => entry group

theorem runSequence_tracks {prepare : TypeKey → Run Unit} {step : Run Unit}
    {entry : TypeKey → Entry Unit} (change : TypeKey → Context → Context) (kept : Context → Prop)
    (counts : ∀ context, kept context → context.violationCount = context.reported.length)
    (prepares : ∀ group context, prepare group context = .ok () (change group context))
    (sameLedger : ∀ group context, (change group context).ledger = context.ledger)
    (sameCount : ∀ group context, (change group context).violationCount = context.violationCount)
    (tracks : ∀ group context, kept context →
      Tracks step (change group context) (entry group) fun _ later => kept later)
    (groups : List TypeKey) (holds : kept context) :
    Tracks (Engine.runSequence prepare step groups) context (Entry.upToFirst entry groups)
      fun _ later => kept later := by
  induction groups generalizing context with
  | nil => exact Tracks.of_ok rfl rfl holds
  | cons group rest ih =>
    have before : (change group context).violationCount = context.ledger.reported.length :=
      (sameCount group context).trans (counts context holds)
    have tracked := tracks group context holds
    unfold Tracks at tracked ⊢
    rw [sameLedger] at tracked
    simp only [Engine.runSequence, Engine.reports, Run.bind_apply, prepares, Run.get_apply,
      Entry.upToFirst, before]
    generalize step (change group context) = result at tracked
    generalize entry group context.ledger = shown at tracked
    cases tracked with
    | error error later => exact .error error later
    | ok _ later kept =>
      have after : later.violationCount = later.ledger.reported.length := counts later kept
      simp only [Run.pure_apply, after, decide_eq_true_eq]
      split
      · exact .ok () later kept
      · exact ih kept

/-- Whatever a step tracks in each group, it tracks in the groups of the sequence where the type
redefines the default group. -/
theorem withDefault_tracks (metadata : MetaBean) (kept : Context → Prop) {step : Run Unit}
    {entry : TypeKey → Entry Unit}
    (counts : ∀ context, kept context → context.violationCount = context.reported.length)
    (switches : ∀ group context, kept context → kept { context with group })
    (tracks : ∀ there : Context, kept there → Tracks step there (entry there.group)
      fun _ later => kept later ∧ later.group = there.group)
    (holds : kept context) :
    Tracks (Engine.withDefaultSequence metadata step) context
      (Entry.forDefault metadata entry context.group)
      fun _ later => kept later ∧ later.group = context.group := by
  have plain := tracks context holds
  unfold Engine.withDefaultSequence Entry.forDefault
  cases metadata.groupSequence with
  | none => exact plain
  | some sequence =>
    refine Tracks.after (Run.get_apply context) rfl ?_
    by_cases isDefault : context.group = .defaultGroup
    · simp only [if_pos isDefault]
      refine Tracks.restoring (runSequence_tracks (fun group context => { context with group })
        kept counts (fun _ _ => rfl) (fun _ _ => rfl) (fun _ _ => rfl) ?_ sequence holds)
        (fun _ => rfl) fun _ later keptLater => ⟨switches _ later keptLater, isDefault.symm⟩
      intro group middle keptMiddle
      exact (tracks _ (switches group middle keptMiddle)).weaken fun _ _ ends => ends.1
    · simp only [if_neg isDefault]
      exact plain

/-- Whatever a step tracks at a stop in each group, it tracks in the groups of the sequence where
the type redefines the default group. -/
theorem forDefault_tracks {property : Option String} {step : Run Unit}
    {entry : TypeKey → Entry Unit} (here : context.At setting asked stop property)
    (tracks : ∀ there : Context, there.At setting asked stop property →
      Tracks step there (entry there.group) (Leaves setting asked there.cursor)) :
    Tracks (Engine.withDefaultSequence stop.metadata step) context
      (Entry.forDefault stop.metadata entry context.group)
      (Leaves setting asked context.cursor) := by
  let kept : Context → Prop := fun later => later.Stands setting asked
    ∧ { later.cursor with group := .defaultGroup } = { context.cursor with group := .defaultGroup }
  have tracked := withDefault_tracks stop.metadata kept
    (fun _ holds => holds.1.count) (fun _ _ ⟨stands, same⟩ => ⟨{ stands with }, same⟩)
    (fun there ⟨stands, same⟩ => by
      have home : Context.At setting asked stop property { there with group := context.group } :=
        here.later { stands with }
          (congrArg (fun cursor : Cursor => { cursor with group := context.group }) same)
      exact (tracks there ⟨stands, home.site⟩).weaken fun _ later ⟨standsLater, sameLater⟩ =>
        ⟨⟨standsLater, by rw [sameLater]; exact same⟩, congrArg Cursor.group sameLater⟩)
    ⟨here.stands, rfl⟩
  refine tracked.weaken fun _ later ⟨⟨stands, same⟩, group⟩ => ⟨stands, ?_⟩
  have back := congrArg (fun cursor : Cursor => { cursor with group := context.group }) same
  simpa only [Context.cursor, group] using back

/-- **Validating a bean tracks what the survey does at the stop**, also where its type redefines the
default group. -/
theorem withDefaultSequence_tracks (consistent : setting.Consistent asked)
    (asks : setting.AsksWithin asked stop) (here : context.At setting asked stop none) :
    Tracks
      (Engine.withDefaultSequence stop.metadata
        (Engine.validateOwn setting.environment stop.metadata))
      context (setting.validateStop context.group stop) (Leaves setting asked context.cursor) :=
  forDefault_tracks here fun _ there => validateOwn_tracks consistent asks there

end AtStop

end GraphValidation
