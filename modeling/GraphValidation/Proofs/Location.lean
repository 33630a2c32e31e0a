/-
**Where violations are found.**

The path of a violation can be followed from the root.  Each node but the last one names a property
that is read on the bean before, and takes an element of what was read; so one arrives at the bean
that the constraint was evaluated on.

* `LeadsTo`, `FromRoot` — following the nodes of a path.
* `Setting.fromRoot_of_stop` — the path of each stop leads to its bean.
* `Violation.LocatedAt` — the place of a violation.
* `heard_located` — **every violation is found where its path says**.
-/
import GraphValidation.Proofs.Calls

namespace GraphValidation

/-! ### Following a path -/

section Following

variable (configuration : Configuration) (heap : Heap)

/-- Nodes lead from one bean to another: each names a property of the metadata, which one of its
cascade accesses reads, and takes an element of what is read; the next metadata is that of the
target. -/
inductive LeadsTo : Value → MetaBean → List Path.Node → Value → MetaBean → Prop
  | here (bean : Value) (metadata : MetaBean) : LeadsTo bean metadata [] bean metadata
  | onward {bean value element last : Value} {metadata next lastMetadata : MetaBean}
      {property : MetaProperty} {target : CascadeTarget} {access : Access} {node : Path.Node}
      {rest : List Path.Node} :
    property ∈ metadata.properties → node.name = some property.name →
      property.cascade = some target → access ∈ property.cascadeAccesses →
      access.read heap bean = .ok value → value.Takes node.mark element →
      configuration.build (Setting.targetType target element) = .ok next →
      LeadsTo element next rest last lastMetadata →
      LeadsTo bean metadata (node :: rest) last lastMetadata

/-- Nodes lead from the root to a bean: from a root that is no container, or from an element of it
that the first node takes. -/
inductive FromRoot (root : Value) : List Path.Node → Value → MetaBean → Prop
  | whole {metadata lastMetadata : MetaBean} {nodes : List Path.Node} {last : Value} :
    (∀ mark element, root.Takes mark element → mark = .plain) →
      configuration.build root.runtimeType = .ok metadata →
      LeadsTo configuration heap root metadata nodes last lastMetadata →
      FromRoot root nodes last lastMetadata
  | element {metadata lastMetadata : MetaBean} {mark : Path.Mark} {rest : List Path.Node}
      {element last : Value} :
    mark ≠ .plain → root.Takes mark element →
      configuration.build element.runtimeType = .ok metadata →
      LeadsTo configuration heap element metadata rest last lastMetadata →
      FromRoot root (⟨none, mark⟩ :: rest) last lastMetadata

variable {configuration heap}

/-- One more node at the end. -/
theorem LeadsTo.snoc {bean middle value element : Value} {metadata between next : MetaBean}
    {property : MetaProperty} {target : CascadeTarget} {access : Access} {nodes : List Path.Node}
    {node : Path.Node} (leads : LeadsTo configuration heap bean metadata nodes middle between)
    (member : property ∈ between.properties) (named : node.name = some property.name)
    (cascaded : property.cascade = some target) (way : access ∈ property.cascadeAccesses)
    (read : access.read heap middle = .ok value) (takes : value.Takes node.mark element)
    (built : configuration.build (Setting.targetType target element) = .ok next) :
    LeadsTo configuration heap bean metadata (nodes ++ [node]) element next := by
  induction leads with
  | here bean metadata => exact .onward member named cascaded way read takes built (.here _ _)
  | onward member' named' cascaded' way' read' takes' built' _ ih =>
    exact .onward member' named' cascaded' way' read' takes' built' (ih member read)

/-- One more node at the end, from the root on. -/
theorem FromRoot.snoc {root middle value element : Value} {between next : MetaBean}
    {property : MetaProperty} {target : CascadeTarget} {access : Access} {nodes : List Path.Node}
    {node : Path.Node} (leads : FromRoot configuration heap root nodes middle between)
    (member : property ∈ between.properties) (named : node.name = some property.name)
    (cascaded : property.cascade = some target) (way : access ∈ property.cascadeAccesses)
    (read : access.read heap middle = .ok value) (takes : value.Takes node.mark element)
    (built : configuration.build (Setting.targetType target element) = .ok next) :
    FromRoot configuration heap root (nodes ++ [node]) element next := by
  cases leads with
  | whole plain builtRoot leads =>
    exact .whole plain builtRoot (leads.snoc member named cascaded way read takes built)
  | element marked takesFirst builtFirst leads =>
    exact .element marked takesFirst builtFirst
      (leads.snoc member named cascaded way read takes built)

end Following

/-! ### The nodes of a path -/

/-- The nodes of a path that say something: the path of the root has none. -/
def Path.steps (path : Path) : List Path.Node := if path.isRoot then [] else path.nodes

/-- A node that says something comes last, also where it takes the place of the root's. -/
theorem Path.steps_push (path : Path) {node : Node} (real : node.isPlaceholder = false) :
    (path.push node).steps = path.steps ++ [node] := by
  by_cases isRoot : path.isRoot = true
  · have alone : Path.isRoot ⟨node, []⟩ = false := real
    rw [push_of_isRoot node isRoot, steps, steps, if_pos isRoot, alone]
    rfl
  · have below : Path.isRoot ⟨node, path.leaf :: path.above⟩ = false := rfl
    rw [push, if_neg isRoot, steps, steps, if_neg isRoot, below]
    exact List.reverse_cons

/-- The node of a property comes last. -/
theorem Path.steps_add (path : Path) (name : String) :
    (path.add name).steps = path.steps ++ [.named name] := path.steps_push rfl

/-- The node of an element of a property comes last. -/
theorem Path.steps_markLeaf_add (path : Path) (name : String) (mark : Mark) :
    ((path.add name).markLeaf mark).steps = path.steps ++ [⟨some name, mark⟩] := by
  have marked : (path.add name).markLeaf mark = path.push ⟨some name, mark⟩ := by
    unfold add push
    split <;> rfl
  rw [marked]
  exact path.steps_push rfl

/-- An element of the root has a node without a name. -/
theorem Path.steps_markLeaf_root {mark : Mark} (marked : mark ≠ .plain) :
    (root.markLeaf mark).steps = [⟨none, mark⟩] := by
  cases mark with
  | plain => exact absurd rfl marked
  | element => rfl
  | index _ => rfl
  | key _ => rfl

/-! ### The path of a stop -/

section Stops

variable {validator : Validator} {heap : Heap} {root : Value} {requested : List TypeKey}
  {plan : Plan}

/-- **The path of each stop leads to its bean.** -/
theorem fromRoot_of_stop (off : validator.mapsLikeBeans = false)
    (planned : validator.plan heap root requested = .ok plan) :
    ∀ stop, .ok stop ∈ plan.stops →
      FromRoot validator.cache.configuration heap root stop.path.steps stop.bean stop.metadata := by
  obtain ⟨metadata, groups, -, known, -, rfl⟩ := Validator.plan_eq_ok planned
  refine Setting.itinerary_all (fun stop start => ?_) fun stop arrived next onward => ?_
  · rcases (Setting.mem_starts off).mp start with ⟨own, isOwn, rfl⟩ | ⟨isNone, mark, ref, takes, at_stop⟩
    · cases isOwn
      obtain ⟨whole, built⟩ := rootMetadata?_eq_some known
      exact .whole (fun mark element takes => (Engine.takes_of_whole off whole takes).1) built
        (.here root own)
    · cases isNone
      obtain ⟨own, built, rfl⟩ := Setting.stopAt_eq_ok.mp at_stop.symm
      have marked : mark ≠ .plain := by
        rintro rfl
        cases takes
        cases rootMetadata?_eq_none known
      rw [Path.steps_markLeaf_root marked]
      exact .element marked takes built (.here _ own)
  · obtain ⟨way, opened, ending⟩ := (Setting.mem_onward off).mp onward
    obtain ⟨own, built, rfl⟩ := Setting.stopAt_eq_ok.mp ending
    rw [Path.steps_markLeaf_add]
    exact arrived.snoc opened.property rfl opened.target opened.access opened.read opened.takes built

end Stops

/-! ### The violations of a constraint -/

/-- A violation of its own choice that the validator of a constraint reports on a value. -/
def ConstraintNode.Customizes (heap : Heap) (part : ConstraintNode) (value : Value)
    (custom : CustomViolation) : Prop :=
  ∃ name predicate report, part.content.validator = some (name, predicate)
    ∧ predicate heap value (.start part.content.template) = .ok (false, report)
    ∧ custom ∈ report.custom

/-- A violation of a node at a site: on the site itself, or below it where its validator has asked
for that. -/
def Site.Reports (environment : Environment) (site : Site) (value : Value) (node : ConstraintNode)
    (violation : Violation) : Prop :=
  ∃ part template below, ConstraintNode.Within part node
    ∧ violation = site.violation environment part template below value
    ∧ (below = none ∨ ∃ custom, part.Customizes environment.heap value custom
      ∧ custom.property = below ∧ custom.template = template)

section Judgements

variable {environment : Environment} {site : Site} {value : Value} {violation : Violation}

theorem reports_of_judgeOwn {node : ConstraintNode}
    (member : violation ∈ (judgeOwn environment site value node).violations) :
    site.Reports environment value node violation := by
  unfold judgeOwn at member
  cases validator : node.content.validator with
  | none => simp [validator, Findings.nothing] at member
  | some named =>
    obtain ⟨name, predicate⟩ := named
    simp only [validator] at member
    cases answered : predicate environment.heap value (.start node.content.template) with
    | error error => simp [answered, Findings.failed] at member
    | ok answer =>
      obtain ⟨valid, report⟩ := answer
      cases valid with
      | true => simp [answered, Findings.nothing] at member
      | false =>
        simp only [answered, Findings.violated, violationsOf] at member
        rcases List.mem_append.mp member with chosen | plain
        · obtain ⟨custom, reported, rfl⟩ := List.mem_map.mp chosen
          exact ⟨node, custom.template, custom.property, .self node, rfl,
            .inr ⟨custom, ⟨name, predicate, report, validator, answered, reported⟩, rfl, rfl⟩⟩
        · cases enabled : report.defaultEnabled with
          | false => simp [enabled] at plain
          | true =>
            simp only [enabled, if_true, List.mem_singleton] at plain
            exact ⟨node, node.content.template, none, .self node, plain, .inl rfl⟩

mutual

/-- What a constraint finds are violations of the nodes of its tree. -/
theorem reports_of_judge {place : NodePlace} (node : ConstraintNode)
    (member : violation ∈ (judge environment site place value node).violations) :
    site.Reports environment value node violation := by
  cases node with
  | mk content composing =>
    have below : violation ∈ (judgeAll environment site place 0 value composing).violations →
        site.Reports environment value (.mk content composing) violation := fun member => by
      obtain ⟨child, inside, part, template, under, within, rest⟩ := reports_of_judgeAll composing member
      exact ⟨part, template, under, .inside content composing within inside, rest⟩
    unfold judge at member
    rcases Findings.mem_violations_andThen member with reached | found
    · cases reached
    · split at found
      · rcases Findings.mem_violations_andThen found with silent | found
        · cases silent
        · split at found
          · exact reports_of_judgeOwn found
          · rw [Findings.violated, List.mem_singleton] at found
            exact ⟨.mk content composing, content.template, none, .self _, found, .inl rfl⟩
      · rcases Findings.mem_violations_andThen found with inner | own
        · exact below inner
        · exact reports_of_judgeOwn own

/-- What composing constraints find are violations of the nodes of their trees. -/
theorem reports_of_judgeAll {place : NodePlace} {index : Nat} (nodes : List ConstraintNode)
    (member : violation ∈ (judgeAll environment site place index value nodes).violations) :
    ∃ child ∈ nodes, site.Reports environment value child violation := by
  cases nodes with
  | nil => cases member
  | cons node rest =>
    unfold judgeAll at member
    rcases Findings.mem_violations_andThen member with first | later
    · exact ⟨node, List.mem_cons_self, reports_of_judge node first⟩
    · obtain ⟨child, inside, reports⟩ := reports_of_judgeAll rest later
      exact ⟨child, List.mem_cons_of_mem _ inside, reports⟩

end

end Judgements

/-! ### The place of a violation -/

/-- A violation points to nodes as one of a property, or of none; or, where the validator of the
constraint has asked for that, to a property below. -/
inductive Violation.Points (heap : Heap) (violation : Violation) (part : ConstraintNode)
    (steps : List Path.Node) (property : Option String) : Prop
  | direct : violation.path.steps = steps → violation.property = property →
      Points heap violation part steps property
  | below {custom : CustomViolation} {name : String} :
    part.Customizes heap violation.invalid custom → custom.property = some name →
      custom.template = violation.template → violation.path.steps = steps ++ [.named name] →
      violation.property = some name → Points heap violation part steps property

/-- **The place of a violation**: nodes lead from the root to the bean; then comes the node of the
property whose value is invalid, as the access of the constraint reads it on the bean, or nothing
where the bean itself is invalid. -/
inductive Violation.LocatedAt (configuration : Configuration) (heap : Heap) (root : Value)
    (violation : Violation) (ref : BeanRef) : Prop
  | property {steps : List Path.Node} {metadata : MetaBean} {property : MetaProperty}
      {node part : ConstraintNode} {access : Access} :
    FromRoot configuration heap root steps (.bean ref) metadata →
      property ∈ metadata.properties → node ∈ property.constraints →
      ConstraintNode.Within part node → violation.constraint = some part.descriptor →
      part.content.access = some access → access.read heap (.bean ref) = .ok violation.invalid →
      violation.Points heap part (steps ++ [.named property.name]) (some property.name) →
      LocatedAt configuration heap root violation ref
  | type {steps : List Path.Node} {metadata : MetaBean} {node part : ConstraintNode} :
    FromRoot configuration heap root steps (.bean ref) metadata →
      node ∈ metadata.constraints → ConstraintNode.Within part node →
      violation.constraint = some part.descriptor → part.content.access = none →
      violation.invalid = .bean ref → violation.Points heap part steps none →
      LocatedAt configuration heap root violation ref

/-- What a duty finds, a constraint finds on the bean or on what its access reads there. -/
theorem Setting.reports_of_findings {setting : Setting} {stop : Stop} {duty : Duty}
    {violation : Violation} (member : violation ∈ (setting.findings stop duty).violations) :
    ∃ value, (setting.site stop duty.place.property).Reports setting.environment value duty.node
        violation
      ∧ match duty.node.content.access with
        | none => value = stop.bean
        | some access => access.read setting.environment.heap stop.bean = .ok value := by
  rcases setting.findings_cases stop duty with ⟨value, judged, reads⟩ | ⟨none, -⟩
  · rw [judged] at member
    refine ⟨value, reports_of_judge duty.node member, ?_⟩
    cases way : duty.node.content.access with
    | none =>
      rw [way] at reads
      exact reads
    | some access =>
      rw [way] at reads
      exact value_eq_ok.mp reads
  · rw [none] at member
    cases member

/-- A violation that is reported at a site points to where the site is. -/
theorem Site.Reports.points {environment : Environment} {site : Site} {value : Value}
    {node : ConstraintNode} {violation : Violation}
    (reports : site.Reports environment value node violation) :
    ∃ part, ConstraintNode.Within part node ∧ violation.constraint = some part.descriptor
      ∧ violation.leafBean = site.bean.bean? ∧ violation.invalid = value
      ∧ violation.Points environment.heap part site.path.steps site.property := by
  obtain ⟨part, template, below, within, rfl, plain | ⟨custom, chosen, rfl, sameTemplate⟩⟩ := reports
  · subst plain
    exact ⟨part, within, rfl, rfl, rfl, .direct rfl rfl⟩
  · refine ⟨part, within, rfl, rfl, rfl, ?_⟩
    cases named : custom.property with
    | none => exact .direct rfl rfl
    | some name => exact .below chosen named sameTemplate (Path.steps_add site.path name) rfl

section Heard

variable {validator : Validator} {heap : Heap} {root : Value} {requested : List TypeKey}
  {violation : Violation} {ref : BeanRef}

/-- Every violation is a finding of a duty at a stop of the plan. -/
theorem findings_of_heard (off : validator.mapsLikeBeans = false)
    (heard : violation ∈ (validator.validate heap root requested).heard) :
    ∃ plan, validator.plan heap root requested = .ok plan ∧ ∃ stop, .ok stop ∈ plan.stops ∧
      ∃ duty ∈ stop.metadata.duties, violation ∈ (plan.setting.findings stop duty).violations := by
  cases planned : validator.plan heap root requested with
  | error error =>
    rw [(validate_of_unplanned planned).2.1] at heard
    cases heard
  | ok plan =>
    rw [(validate_shows_on_beans off planned).heard_eq] at heard
    exact ⟨plan, rfl, Setting.mem_reported_call plan.groups (List.mem_reverse.mp heard)⟩

/-- **Every violation is found where its path says.** -/
theorem heard_located (off : validator.mapsLikeBeans = false)
    (heard : violation ∈ (validator.validate heap root requested).heard)
    (on : violation.leafBean = some ref) :
    violation.LocatedAt validator.cache.configuration heap root ref := by
  obtain ⟨plan, planned, stop, member, duty, own, found⟩ := findings_of_heard off heard
  have leads := fromRoot_of_stop off planned stop member
  have wellFormed := stops_wellFormed planned stop member
  obtain ⟨value, reports, reading⟩ := Setting.reports_of_findings found
  obtain ⟨part, within, described, leaf, isInvalid, points⟩ := reports.points
  obtain ⟨metadata, groups, -, -, -, rfl⟩ := Validator.plan_eq_ok planned
  have isBean : stop.bean = .bean ref := Value.eq_bean_of_bean? (leaf.symm.trans on)
  rw [isBean] at leads reading
  subst isInvalid
  rcases MetaBean.mem_duties own with ⟨property, inside, named, constraint⟩ | ⟨unnamed, constraint⟩
  · obtain ⟨access, -, readsBy⟩ :=
      (wellFormed.properties property inside).constraints duty.node constraint
    rw [readsBy duty.node (.self duty.node)] at reading
    rw [named] at points
    refine .property leads inside constraint within described (readsBy part within) reading ?_
    rw [← Path.steps_add]
    exact points
  · have readsBy := wellFormed.constraints duty.node constraint
    rw [readsBy duty.node (.self duty.node)] at reading
    rw [unnamed] at points
    exact .type leads constraint within described (readsBy part within) reading points

end Heard

/-- In a ring, a node without a name is found by the link that leads to it. -/
theorem heard_located_ring :
    ∃ violation ∈ (Ring.validator.validate (Ring.heap (.string "a") .null) (.bean Ring.first)
        [Ring.basic]).heard,
      violation.leafBean = some Ring.second ∧ violation.LocatedAt Ring.validator.cache.configuration
        (Ring.heap (.string "a") .null) (.bean Ring.first) Ring.second := by
  have found : ((Ring.validator.validate (Ring.heap (.string "a") .null) (.bean Ring.first)
      [Ring.basic]).heard.head?.bind (·.leafBean)) = some Ring.second := by decide +kernel
  obtain ⟨violation, isHead, on⟩ := Option.bind_eq_some_iff.mp found
  have heard := List.mem_of_head? isHead
  exact ⟨violation, heard, on, heard_located rfl heard on⟩

end GraphValidation
