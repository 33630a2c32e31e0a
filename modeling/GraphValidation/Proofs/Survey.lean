/-
**The survey of a graph.**

A pass over a graph is known before it is made: which beans it comes to, in which order, with which
metadata and at which paths depends on the graph, the metadata and the resolver, and neither on the
group nor on what has been found.  The survey lists these stops.  What is done at a stop needs no
more than a ledger: the constraints that have been evaluated and the violations so far.

* `Setting.itinerary` — the stops of a pass, the places where it fails in between.
* `Setting.call` — what a validation does at the stops, on a ledger.

Neither looks at the state of a validation; that a validation follows its survey is another matter.
-/
import GraphValidation.Proofs.Findings

namespace GraphValidation

theorem Value.eq_bean_of_bean? {value : Value} {ref : BeanRef} (isBean : value.bean? = some ref) :
    value = .bean ref := by
  cases value with
  | bean other =>
    cases isBean
    rfl
  | _ => cases isBean

/-- What no step of a call changes. -/
structure Setting where
  environment : Environment
  /-- The metadata of each type. -/
  metadata : TypeKey → Except ConfigError MetaBean
  rootType : Option TypeKey

/-- A bean that a pass comes to, with its metadata and the path to it. -/
structure Stop where
  bean : Value
  metadata : MetaBean
  path : Path

/-- A constraint and its place in metadata. -/
structure Duty where
  place : NodePlace
  node : ConstraintNode

/-- Constraints at their places, from a position in the list of them. -/
def dutiesFrom (type : TypeKey) (property : Option String) (index : Nat) :
    List ConstraintNode → List Duty
  | [] => []
  | node :: rest => ⟨⟨type, property, [index]⟩, node⟩ :: dutiesFrom type property (index + 1) rest

/-- The constraints of a type in the order in which they are validated: those of its properties,
then its own. -/
def MetaBean.duties (metadata : MetaBean) : List Duty :=
  metadata.properties.flatMap
      (fun property => dutiesFrom metadata.type (some property.name) 0 property.constraints)
    ++ dutiesFrom metadata.type none 0 metadata.constraints

theorem mem_dutiesFrom {type : TypeKey} {property : Option String} {index : Nat}
    {nodes : List ConstraintNode} {duty : Duty} (member : duty ∈ dutiesFrom type property index nodes) :
    duty.node ∈ nodes ∧ duty.place.type = type ∧ duty.place.property = property
      ∧ ∃ position, index ≤ position ∧ duty.place.positions = [position] := by
  induction nodes generalizing index with
  | nil => cases member
  | cons node rest ih =>
    cases member with
    | head => exact ⟨List.mem_cons_self, rfl, rfl, index, Nat.le_refl index, rfl⟩
    | tail _ member =>
      obtain ⟨inside, type, property, position, after, positions⟩ := ih member
      exact ⟨List.mem_cons_of_mem _ inside, type, property, position, Nat.le_of_succ_le after,
        positions⟩

/-- A duty is a constraint of a property, or one of the type itself. -/
theorem MetaBean.mem_duties {metadata : MetaBean} {duty : Duty} (member : duty ∈ metadata.duties) :
    (∃ property ∈ metadata.properties, duty.place.property = some property.name
        ∧ duty.node ∈ property.constraints)
      ∨ duty.place.property = none ∧ duty.node ∈ metadata.constraints := by
  rcases List.mem_append.mp member with ofProperty | own
  · obtain ⟨property, inside, member⟩ := List.mem_flatMap.mp ofProperty
    obtain ⟨node, -, named, -⟩ := mem_dutiesFrom member
    exact .inl ⟨property, inside, named, node⟩
  · obtain ⟨node, -, named, -⟩ := mem_dutiesFrom own
    exact .inr ⟨named, node⟩

/-- How a bean is gone through: the stops from it on, after the beans that the pass has come to. -/
abbrev Tour := List String → Stop → List String × List (Except ValidationError Stop)

namespace Setting

variable (setting : Setting)

/-- A property of a stop, or the stop itself. -/
def site (stop : Stop) (property : Option String) : Site where
  rootType := setting.rootType
  bean := stop.bean
  path := match property with
    | some name => stop.path.add name
    | none => stop.path
  property

/-! ### Asking and reading -/

/-- The answer of the resolver at a site. -/
def answer (site : Site) (kind : ElementKind) (question : Question) :
    Except ValidationError Bool :=
  match setting.environment.resolver.answer question
      ⟨site.bean, site.path.leaf, site.rootType, site.path.removeLeaf, kind⟩ with
  | .ok answer => .ok answer
  | .error source => .error (.resolver question site.bean.text source)

/-- Whether a property may be read and validation may go on from it. -/
def isOpen (site : Site) (kind : ElementKind) : Except ValidationError Bool :=
  match setting.answer site kind .reachable with
  | .ok true => setting.answer site kind .cascadable
  | .ok false => .ok false
  | .error error => .error error

/-- What an access reads at a site. -/
def value (site : Site) (access : Access) : Except ValidationError Value :=
  match access.read setting.environment.heap site.bean with
  | .ok value => .ok value
  | .error error => .error (.access site.path.text error)

/-! ### The stops of a pass -/

/-- The type whose metadata an element is validated with. -/
def targetType (target : CascadeTarget) (element : Value) : TypeKey :=
  match target with
  | .static type => type
  | .dynamic => element.runtimeType

/-- The stop at an element, or the reason why it has no metadata. -/
def stopAt (target : CascadeTarget) (path : Path) (element : Value) : Except ValidationError Stop :=
  match setting.metadata (targetType target element) with
  | .ok metadata => .ok ⟨element, metadata, path⟩
  | .error error => .error (.config error)

/-- The stop at an element; what has no members is skipped. -/
def sight (target : CascadeTarget) (path : Path) (element : Value) :
    List (Except ValidationError Stop) :=
  if Engine.isBeanLike setting.environment element then [setting.stopAt target path element] else []

/-- The stops at a related value: at its elements if it is a container, else at the value itself. -/
def sights (target : CascadeTarget) (path : Path) (value : Value) :
    List (Except ValidationError Stop) :=
  match Engine.elements? setting.environment value with
  | some elements => elements.flatMap fun element =>
    setting.sight target (path.markLeaf element.1) element.2
  | none => setting.sight target path value

/-- The stops that an access to a property leads to. -/
def leads (stop : Stop) (name : String) (target : CascadeTarget) (access : Access) :
    List (Except ValidationError Stop) :=
  let site := setting.site stop (some name)
  match setting.isOpen site access.kind with
  | .error error => [.error error]
  | .ok false => []
  | .ok true =>
    match setting.value site access with
    | .error error => [.error error]
    | .ok value => setting.sights target site.path value

/-- The stops that a property leads to. -/
def leadsOf (stop : Stop) (property : MetaProperty) : List (Except ValidationError Stop) :=
  match property.cascade with
  | none => []
  | some target => property.cascadeAccesses.flatMap (setting.leads stop property.name target)

/-- The stops that a stop leads to, in the order in which a pass comes to them. -/
def onward (stop : Stop) : List (Except ValidationError Stop) :=
  stop.metadata.properties.flatMap (setting.leadsOf stop)

/-- Going through stops in order, given how one is gone through; `seen` holds the beans that the
pass has come to. -/
def walk (tour : Tour) (seen : List String) :
    List (Except ValidationError Stop) → List String × List (Except ValidationError Stop)
  | [] => (seen, [])
  | .error error :: rest =>
    let (later, listed) := walk tour seen rest
    (later, .error error :: listed)
  | .ok stop :: rest =>
    let (between, first) := tour seen stop
    let (later, listed) := walk tour between rest
    (later, first ++ listed)

theorem walk_append (tour : Tour) (seen : List String)
    (first second : List (Except ValidationError Stop)) :
    walk tour seen (first ++ second)
      = ((walk tour (walk tour seen first).1 second).1,
        (walk tour seen first).2 ++ (walk tour (walk tour seen first).1 second).2) := by
  induction first generalizing seen with
  | nil => rfl
  | cons head rest ih =>
    cases head with
    | error error => simp only [List.cons_append, walk, ih]
    | ok stop => simp only [List.cons_append, walk, ih, List.append_assoc]

@[simp] theorem walk_ok (tour : Tour) (seen : List String) (stop : Stop) :
    walk tour seen [.ok stop] = tour seen stop := by
  simp only [walk, List.append_nil]

/-- The stops at a bean and below it, unless the pass has come to the bean before.  There are so
many levels, and below them another tour. -/
def tourOver (bottom : Tour) : Nat → Tour
  | 0, seen, stop => bottom seen stop
  | levels + 1, seen, stop =>
    match stop.bean.bean? with
    | none =>
      let (later, below) := walk (tourOver bottom levels) seen (setting.onward stop)
      (later, .ok stop :: below)
    | some ref =>
      if seen.contains ref.id then (seen, [])
      else
        let (later, below) := walk (tourOver bottom levels) (ref.id :: seen) (setting.onward stop)
        (later, .ok stop :: below)

/-- What is no bean is gone through whenever the pass comes to it. -/
theorem tourOver_of_other {bottom : Tour} {levels : Nat} {seen : List String} {stop : Stop}
    (other : stop.bean.bean? = none) :
    setting.tourOver bottom (levels + 1) seen stop
      = ((walk (setting.tourOver bottom levels) seen (setting.onward stop)).1,
        .ok stop :: (walk (setting.tourOver bottom levels) seen (setting.onward stop)).2) := by
  simp only [tourOver, other]

theorem tourOver_of_known {bottom : Tour} {levels : Nat} {seen : List String} {stop : Stop}
    {ref : BeanRef} (isBean : stop.bean.bean? = some ref) (known : ref.id ∈ seen) :
    setting.tourOver bottom (levels + 1) seen stop = (seen, []) := by
  simp only [tourOver, isBean, List.contains_iff_mem.mpr known, if_true]

theorem tourOver_of_new {bottom : Tour} {levels : Nat} {seen : List String} {stop : Stop}
    {ref : BeanRef} (isBean : stop.bean.bean? = some ref) (new : ref.id ∉ seen) :
    setting.tourOver bottom (levels + 1) seen stop
      = ((walk (setting.tourOver bottom levels) (ref.id :: seen) (setting.onward stop)).1,
        .ok stop
          :: (walk (setting.tourOver bottom levels) (ref.id :: seen) (setting.onward stop)).2) := by
  have unknown : seen.contains ref.id = false := by simpa using new
  simp only [tourOver, isBean, unknown, Bool.false_eq_true, if_false]

/-- The stops at a bean and on some levels below it. -/
def tour : Nat → Tour := setting.tourOver fun seen _ => (seen, [])

/-- Where a pass begins: at a root that is validated as a whole, or at the elements of a root. -/
def starts (root : Value) (metadata : Option MetaBean) : List (Except ValidationError Stop) :=
  match metadata with
  | some metadata => [.ok ⟨root, metadata, .root⟩]
  | none => setting.sights .dynamic .root root

/-- **The stops of a pass**, and the errors that it meets between them. -/
def itinerary (root : Value) (metadata : Option MetaBean) : List (Except ValidationError Stop) :=
  (walk (setting.tour (Engine.levels setting.environment root)) []
    (setting.starts root metadata)).2

end Setting

/-! ### The ledger -/

/-- What a validation has done on the graph. -/
structure Ledger where
  /-- The constraints that have been evaluated, with their beans. -/
  processed : List (String × NodePlace)
  /-- The reported violations, the last one first. -/
  reported : List Violation
  /-- The beans that were entered and the constraints that were evaluated, the last one first. -/
  deeds : List Event

namespace Ledger

/-- The ledger that a call starts with. -/
def blank : Ledger := ⟨[], [], []⟩

/-- The ledger after an evaluation has found something. -/
def noting (ledger : Ledger) (site : Site) (group : TypeKey) (findings : Findings) : Ledger :=
  { ledger with
    reported := findings.violations.reverse ++ ledger.reported
    deeds := (findings.places.map (Event.evaluated site.bean site.path group)).reverse ++ ledger.deeds }

end Ledger

/-- A step that keeps a ledger. -/
abbrev Entry (α : Type) := EStateM ValidationError Ledger α

namespace Entry

/-- The result of what may have failed. -/
def ofExcept {α : Type} : Except ValidationError α → Entry α
  | .ok a => pure a
  | .error error => throw error

/-- A step for each element of a list, in order. -/
def each {α : Type} (step : α → Entry Unit) : List α → Entry Unit
  | [] => pure ()
  | a :: rest => do
    step a
    each step rest

theorem each_append {α : Type} (step : α → Entry Unit) (first second : List α) :
    each step (first ++ second) = (do each step first; each step second) := by
  funext ledger
  induction first generalizing ledger with
  | nil => rfl
  | cons a rest ih =>
    simp only [List.cons_append, each, Run.bind_apply]
    cases step a ledger with
    | ok _ middle => exact (ih middle).trans (Run.bind_apply _ _ middle)
    | error error middle => rfl

/-- Whether a constraint is evaluated on a bean for the first time. -/
def claim (bean : Value) (place : NodePlace) : Entry Bool := fun ledger =>
  match bean.bean? with
  | none => .ok true ledger
  | some ref =>
    if ledger.processed.contains (ref.id, place) then .ok false ledger
    else .ok true { ledger with processed := (ref.id, place) :: ledger.processed }

/-- Enters the findings of an evaluation. -/
def note (site : Site) (group : TypeKey) (findings : Findings) : Entry Unit := fun ledger =>
  match findings.failure with
  | none => .ok () (ledger.noting site group findings)
  | some error => .error error (ledger.noting site group findings)

/-- Enters that a pass has come to a stop. -/
def arrive (stop : Stop) : Entry Unit :=
  modify fun ledger =>
    { ledger with deeds := .entered stop.bean stop.metadata stop.path :: ledger.deeds }

/-- Runs a step for each group, up to the first for which it reports violations. -/
def upToFirst (step : TypeKey → Entry Unit) : List TypeKey → Entry Unit
  | [] => pure ()
  | group :: rest => do
    let before := (← get).reported.length
    step group
    if before < (← get).reported.length then pure () else upToFirst step rest

end Entry

namespace Setting

variable (setting : Setting)

/-- Validates a constraint at a stop, if it belongs to the group and has not been evaluated on the
bean before. -/
def examine (group : TypeKey) (stop : Stop) (duty : Duty) : Entry Unit :=
  let site := setting.site stop duty.place.property
  let judged := fun value => judge setting.environment site duty.place value duty.node
  if isMember setting.environment.types duty.node.content.groups duty.node.content.owner group then do
    if ← Entry.claim stop.bean duty.place then
      match duty.node.content.access with
      | none => Entry.note site group (judged stop.bean)
      | some access =>
        if ← Entry.ofExcept (setting.isOpen site access.kind) then
          let value ← Entry.ofExcept (setting.value site access)
          Entry.note site group (judged value)
        else pure ()
    else pure ()
  else pure ()

/-- Validates the constraints of a stop in a group. -/
def sweep (stop : Stop) (group : TypeKey) : Entry Unit :=
  Entry.each (setting.examine group stop) stop.metadata.duties

/-- Validates the constraints of a stop in a group, or, if that is the default group and the type
redefines it, in the groups of the sequence. -/
def validateStop (group : TypeKey) (stop : Stop) : Entry Unit :=
  match stop.metadata.groupSequence with
  | some sequence =>
    if group = .defaultGroup then Entry.upToFirst (setting.sweep stop) sequence
    else setting.sweep stop group
  | none => setting.sweep stop group

/-- Comes to a stop. -/
def visit (group : TypeKey) (stop : Except ValidationError Stop) : Entry Unit := do
  let stop ← Entry.ofExcept stop
  Entry.arrive stop
  setting.validateStop group stop

theorem visit_ok (group : TypeKey) (stop : Stop) :
    setting.visit group (.ok stop) = (do Entry.arrive stop; setting.validateStop group stop) := rfl

theorem visit_error (group : TypeKey) (error : ValidationError) :
    setting.visit group (.error error) = throw error := rfl

/-- A pass over the stops of an itinerary. -/
def pass (stops : List (Except ValidationError Stop)) (group : TypeKey) : Entry Unit :=
  Entry.each (setting.visit group) stops

/-- **A call**: a pass for each plain group, and for each sequence up to its first violated group. -/
def call (stops : List (Except ValidationError Stop)) (groups : Groups) : Entry Unit := do
  Entry.each (setting.pass stops) groups.plain
  Entry.each (Entry.upToFirst (setting.pass stops)) groups.sequences

end Setting

end GraphValidation
