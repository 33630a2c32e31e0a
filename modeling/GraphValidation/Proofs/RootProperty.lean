/-
**What a validation reports of a property of its root.**

A validation of a graph and one of a single property of its root go through the same groups.  In each
group the first one evaluates all that the second one evaluates, so where the second one finds a new
violation, so does the first one: of a sequence, the second one goes at least as far.

* `Setting.CoversProperty` — the property alone has been evaluated as far as in the graph.
* `Setting.call_outlasted` — **the constraints of the property outlast those of the graph**.
* `Setting.findings_asking` — another resolver with the same answers finds the same.
* `Setting.Retraces`, `exists_retraces` — a validation that succeeds is a run over stops, with the
  answers of some resolver that are those of its own about the root.
* `validateProperty_reports` — **what a validation reports of a property of its root, validating the
  property reports too**.
-/
import GraphValidation.Proofs.Accounts
import GraphValidation.Proofs.Hindsight
import GraphValidation.Proofs.Instanceless

namespace GraphValidation

/-! ### Steps that leave a bean alone -/

/-- A step that takes back no violation, and evaluates no constraint on a bean. -/
structure Entry.Passes (bean : Value) (entry : Entry Unit) : Prop where
  lengthens : entry.Lengthens
  unclaimed : ∀ place, entry.Keeps (fun ledger => ledger.claimed bean place = false) fun _ => True

namespace Entry.Passes

variable {bean : Value}

theorem closed : Entry.Closed (Passes bean) where
  nothing := ⟨.nothing, fun _ => .pure ()⟩
  andThen := fun first second => ⟨first.lengthens.andThen second.lengthens,
    fun place => .bind (first.unclaimed place) fun _ => second.unclaimed place⟩

theorem upToFirst {step : TypeKey → Entry Unit} (steps : ∀ group, Passes bean (step group))
    (groups : List TypeKey) : Passes bean (Entry.upToFirst step groups) where
  lengthens := .upToFirst (fun group => (steps group).lengthens) groups
  unclaimed := fun place => .upToFirst (fun group => (steps group).unclaimed place) groups

theorem fail (error : ValidationError) : Passes bean (MonadExcept.throw error : Entry Unit) where
  lengthens := fun _ _ succeeded => by cases succeeded
  unclaimed := fun _ _ _ => trivial

theorem arrive (stop : Stop) : Passes bean (Entry.arrive stop) where
  lengthens := fun _ _ succeeded => by
    cases succeeded
    exact Nat.le_refl _
  unclaimed := fun _ _ unclaimed => unclaimed

/-- A constraint of another bean. -/
theorem examine {setting : Setting} {group : TypeKey} {stop : Stop} {duty : Duty}
    (apart : ∀ id, bean.bean?.map (·.id) = some id → stop.bean.bean?.map (·.id) ≠ some id) :
    Passes bean (setting.examine group stop duty) where
  lengthens := .examine setting group stop duty
  unclaimed := fun place => Setting.examine_keeps (fun ledger unclaimed _ _ _ => by
    rw [Setting.examined, Ledger.claimed_noting, Ledger.claimed_claiming_of_apart apart]
    exact unclaimed) fun _ _ => trivial

/-- A pass over the stops of other beans. -/
theorem pass {setting : Setting} {stops : List (Except ValidationError Stop)} {group : TypeKey}
    (apart : ∀ stop, .ok stop ∈ stops →
      ∀ id, bean.bean?.map (·.id) = some id → stop.bean.bean?.map (·.id) ≠ some id) :
    Passes bean (setting.pass stops group) :=
  Setting.pass_of_duties closed fail (fun stop _ => arrive stop)
    (fun stop member _ _ _ => examine (apart stop member))
    fun _ _ sequence _ _ sweeps => upToFirst sweeps sequence

end Entry.Passes

/-! ### The property outlasts the graph -/

/-- The property alone has been evaluated on the bean as far as in the graph, and what it has found
has been reported. -/
structure Setting.CoversProperty (setting : Setting) (stop : Stop) (property : MetaProperty)
    (whole alone : Ledger) : Prop where
  settled : alone.Settled setting [.ok stop]
  claims : ∀ duty ∈ stop.metadata.dutiesOf property,
    whole.claimed stop.bean duty.place = true → alone.claimed stop.bean duty.place = true

namespace Setting

variable {setting : Setting} {stop : Stop} {property : MetaProperty} {group : TypeKey}
  {rest : List (Except ValidationError Stop)}

/-- Next to what leaves the bean alone, the property has nothing to do. -/
theorem outlasts_passing {entry : Entry Unit} (passes : entry.Passes stop.bean) :
    Entry.Outlasts (setting.CoversProperty stop property) True (pure ()) entry where
  lengthens := .nothing
  lengthensSecond := passes.lengthens
  onward := by
    rintro whole alone after covers succeeded
    cases succeeded
    exact covers
  follows := by
    rintro whole alone after covers succeeded
    cases succeeded
    cases ran : entry whole with
    | error error later => exact .inr ⟨trivial, error, later, rfl⟩
    | ok _ later =>
      refine .inl ⟨later, rfl, ⟨covers.settled, fun duty own claimed => covers.claims duty own ?_⟩,
        fun grown => absurd grown (Nat.lt_irrefl _)⟩
      cases before : whole.claimed stop.bean duty.place with
      | true => rfl
      | false =>
        have unclaimed := (passes.unclaimed duty.place).of_ok before ran
        rw [claimed] at unclaimed
        cases unclaimed

theorem sweep_lengthens (stop : Stop) (group : TypeKey) : (setting.sweep stop group).Lengthens :=
  Entry.Lengthens.closed.each fun duty _ => .examine setting group stop duty

variable (isBean : stop.bean.bean?.isSome) (wellFormed : stop.metadata.WellFormed)
  (member : property ∈ stop.metadata.properties)

include isBean wellFormed member

/-- A sweep over the constraints of the property keeps its ledger settled. -/
theorem sweepProperty_settled {ledger later : Ledger} (settled : ledger.Settled setting [.ok stop])
    (succeeded : setting.sweepProperty stop property group ledger = .ok () later) :
    later.Settled setting [.ok stop] := by
  have orderly := orderly_singleton isBean wellFormed
  have keeps : (setting.sweepProperty stop property group).Keeps
      (fun ledger => ledger.Settled setting [.ok stop]) fun _ => True :=
    Entry.Keeps.closed.each fun duty own => examine_keeps
      (fun ledger settled _ _ flawless => settled.examined orderly List.mem_cons_self
        (MetaBean.mem_duties_of_mem_dutiesOf member own) flawless)
      fun _ _ => trivial
  exact keeps.of_ok settled succeeded

/-- **In each group the property outlasts the bean**: what it newly evaluates is evaluated on the
bean as well, and is new there too. -/
theorem sweepProperty_outlasts (group : TypeKey) :
    Entry.Outlasts (setting.CoversProperty stop property) True
      (setting.sweepProperty stop property group) (setting.sweep stop group) where
  lengthens := setting.sweepProperty_lengthens stop property group
  lengthensSecond := sweep_lengthens stop group
  onward := by
    intro whole alone after covers succeeded
    have swept : setting.Swept group stop (stop.metadata.dutiesOf property) alone after :=
      swept_of_ok (dutiesFrom_nodup _ _ _ _) succeeded
    exact ⟨sweepProperty_settled isBean wellFormed member covers.settled succeeded,
      fun duty own claimed => (swept.claims duty.place).mpr (.inl (covers.claims duty own claimed))⟩
  follows := by
    intro whole alone after covers succeeded
    have swept : setting.Swept group stop (stop.metadata.dutiesOf property) alone after :=
      swept_of_ok (dutiesFrom_nodup _ _ _ _) succeeded
    have nodup := MetaBean.duties_nodup wellFormed
    cases ran : setting.sweep stop group whole with
    | error error later => exact .inr ⟨trivial, error, later, rfl⟩
    | ok _ later =>
      have sweptWhole : setting.Swept group stop stop.metadata.duties whole later :=
        swept_of_ok nodup ran
      refine .inl ⟨later, rfl, ⟨sweepProperty_settled isBean wellFormed member covers.settled succeeded,
        fun duty own claimed => (swept.claims duty.place).mpr ?_⟩, fun grown => ?_⟩
      · rcases (sweptWhole.claims duty.place).mp claimed with before | ⟨-, other, others, belongs, same⟩
        · exact .inl (covers.claims duty own before)
        · have one : other = duty := List.inj_on_of_nodup_map nodup others
            (MetaBean.mem_duties_of_mem_dutiesOf member own) same
          exact .inr ⟨isBean, duty, own, one ▸ belongs, rfl⟩
      · obtain ⟨duty, fresh, violated⟩ := swept.reports_iff.mp grown
        obtain ⟨own, belongs, unclaimed⟩ := mem_fresh.mp fresh
        refine sweptWhole.reports_iff.mpr ⟨duty, mem_fresh.mpr
          ⟨MetaBean.mem_duties_of_mem_dutiesOf member own, belongs, ?_⟩, violated⟩
        cases before : whole.claimed stop.bean duty.place with
        | false => rfl
        | true =>
          rw [covers.claims duty own before] at unclaimed
          cases unclaimed

variable (apart : ∀ other, .ok other ∈ rest →
  ∀ id, stop.bean.bean?.map (·.id) = some id → other.bean.bean?.map (·.id) ≠ some id)

include apart

/-- In a pass the bean comes first, and is left alone from then on. -/
theorem pass_outlasted (group : TypeKey) :
    Entry.Outlasts (setting.CoversProperty stop property) True
      (Entry.forDefault stop.metadata (setting.sweepProperty stop property) group)
      (setting.pass (.ok stop :: rest) group) := by
  have own : Entry.Outlasts (setting.CoversProperty stop property) True
      (Entry.forDefault stop.metadata (setting.sweepProperty stop property) group)
      (Entry.forDefault stop.metadata (setting.sweep stop) group) := by
    rw [Entry.forDefault_eq_row, Entry.forDefault_eq_row]
    exact .upToFirst (sweepProperty_outlasts isBean wellFormed member) _
  have arrives : Entry.Outlasts (setting.CoversProperty stop property) True (pure ())
      (Entry.arrive stop) := outlasts_passing (.arrive stop)
  have others : Entry.Outlasts (setting.CoversProperty stop property) True (pure ())
      (setting.pass rest group) := outlasts_passing (.pass apart)
  have all := (arrives.andThen own).andThen others
  simp only [pure_bind, bind_pure_unit] at all
  exact all

/-- **The constraints of the property outlast those of the graph.** -/
theorem call_outlasted (groups : Groups) :
    Entry.Outlasts (setting.CoversProperty stop property) True
      (setting.callProperty stop property groups) (setting.call (.ok stop :: rest) groups) :=
  have passes (group : TypeKey) : Entry.Outlasts (setting.CoversProperty stop property) True
      (Entry.forDefault stop.metadata (setting.sweepProperty stop property) group)
      (setting.pass (.ok stop :: rest) group) := pass_outlasted isBean wellFormed member apart group
  .andThen (.each fun group _ => passes group) (.each fun sequence _ => .upToFirst passes sequence)

end Setting

/-! ### Answers about the root -/

/-- The answers of a validation, and those of the resolver where a root was not asked about.  About
other beans it is enough that there is an answer. -/
def Resolver.completing (resolver : Resolver) (answers : List (AnswerKey × Bool)) (root : BeanRef)
    (rootType : Option TypeKey) (key : AnswerKey) : Except String Bool :=
  match answers.lookup key with
  | some answer => .ok answer
  | none =>
    if key.bean = some root.id then
      resolver.answer key.question ⟨.bean root, .named key.path, rootType, .root, key.kind⟩
    else .ok true

/-- The path of a property of the root is its name. -/
theorem Path.text_root_add (name : String) : (Path.root.add name).text = name := by
  simp [Path.add, Path.push, Path.text, Path.nodes, Path.joinNodes, Path.Node.named,
    Path.Node.isPlaceholder, Path.Node.text, Path.Mark.text]

theorem Entry.each_congr {α : Type} {first second : α → Entry Unit} {items : List α}
    (same : ∀ item ∈ items, first item = second item) :
    Entry.each first items = Entry.each second items := by
  induction items with
  | nil => rfl
  | cons item rest ih =>
    rw [Entry.each, Entry.each, same item List.mem_cons_self,
      ih fun other member => same other (List.mem_cons_of_mem _ member)]

namespace Setting

variable {setting : Setting} {stop : Stop} {duty : Duty} {resolver : Resolver}

/-- Another resolver with the same answers about a property finds the same. -/
theorem findings_asking
    (answers : duty.node.content.access.isSome → ∀ kind question,
      (setting.asking resolver).answer (setting.site stop duty.place.property) kind question
        = setting.answer (setting.site stop duty.place.property) kind question) :
    (setting.asking resolver).findings stop duty = setting.findings stop duty := by
  have site : (setting.asking resolver).site stop duty.place.property
      = setting.site stop duty.place.property := rfl
  have judged : judge (setting.asking resolver).environment = judge setting.environment := by
    funext site place value node
    exact judge_asking setting.environment resolver site place value node
  unfold findings
  rw [site, judged]
  cases way : duty.node.content.access with
  | none => rfl
  | some access =>
    have isOpen : (setting.asking resolver).isOpen (setting.site stop duty.place.property) access.kind
        = setting.isOpen (setting.site stop duty.place.property) access.kind := by
      simp only [Setting.isOpen, answers (by rw [way]; rfl)]
    simp only [isOpen]
    rfl

/-- If another resolver lets the duties of a property find the same, the calls for it are the same. -/
theorem callProperty_asking {property : MetaProperty}
    (same : ∀ duty ∈ stop.metadata.dutiesOf property,
      (setting.asking resolver).findings stop duty = setting.findings stop duty) (groups : Groups) :
    (setting.asking resolver).callProperty stop property groups
      = setting.callProperty stop property groups := by
  have sweeps : (setting.asking resolver).sweepProperty stop property
      = setting.sweepProperty stop property := by
    funext group
    refine Entry.each_congr fun duty own => ?_
    funext ledger
    rw [examine_apply, examine_apply, same duty own]
    rfl
  unfold callProperty
  rw [sweeps]

/-- The stops of a pass from a bean begin at the bean. -/
theorem exists_itinerary (setting : Setting) (root : BeanRef) (metadata : MetaBean) :
    ∃ rest, setting.itinerary (.bean root) (some metadata)
      = .ok ⟨.bean root, metadata, .root⟩ :: rest := by
  unfold itinerary starts
  rw [walk_ok]
  exact ⟨_, congrArg Prod.snd (setting.tourOver_of_new rfl List.not_mem_nil)⟩

end Setting

/-! ### Calls -/

/-- A violation that a call reports is found by a constraint that the call has evaluated at a stop. -/
structure Outcome.ReportsBy (outcome : Outcome) (setting : Setting) (stop : Stop) (duty : Duty)
    (violation : Violation) : Prop where
  heard : violation ∈ outcome.heard
  evaluated : setting.Evaluated outcome.journal stop duty
  found : violation ∈ (setting.findings stop duty).violations

section Calls

variable {validator : Validator} {heap : Heap} {root : BeanRef} {requested : List TypeKey}
  {metadata : MetaBean} {plan : Plan}

/-- The plan of a validation from a bean. -/
theorem plan_of_bean (built : validator.cache.configuration.build root.type = .ok metadata)
    (planned : validator.plan heap (.bean root) requested = .ok plan) :
    plan = ⟨validator.setting heap (.bean root) (some metadata), .bean root, some metadata,
      plan.groups⟩ := by
  obtain ⟨known, groups, -, found, -, rfl⟩ := Validator.plan_eq_ok planned
  have own : validator.rootMetadata? heap (.bean root) = .ok (some metadata) := by
    have whole : Engine.elements? (validator.environment heap) (.bean root) = none := rfl
    have type : (Value.bean root).runtimeType = root.type := rfl
    simp only [Validator.rootMetadata?, whole, type, built]
  rw [own] at found
  cases found
  rfl

/-- Another resolver changes nothing about the plan but the answers. -/
theorem plan_asking (resolver : Resolver)
    (built : validator.cache.configuration.build root.type = .ok metadata)
    (planned : validator.plan heap (.bean root) requested = .ok plan) :
    (validator.asking resolver).plan heap (.bean root) requested
      = .ok ⟨plan.setting.asking resolver, .bean root, some metadata, plan.groups⟩ := by
  have isPlan := plan_of_bean built planned
  obtain ⟨known, groups, present, found, resolved, rfl⟩ := Validator.plan_eq_ok planned
  cases congrArg Plan.metadata isPlan
  have foundOther : (validator.asking resolver).rootMetadata? heap (.bean root)
      = .ok (some metadata) := found
  have resolvedOther : (validator.asking resolver).groups? requested = .ok groups := resolved
  simp only [Validator.plan, present, Bool.false_eq_true, if_false, foundOther, resolvedOther]
  rfl

/-- At the stops of a pass no two answers mix, and about the root they are those of the resolver. -/
theorem consistent_completing {setting : Setting} {stops : List (Except ValidationError Stop)}
    (nodup : (Setting.idsOf stops).Nodup) (resolver : Resolver) (answers : List (AnswerKey × Bool))
    (rootType : Option TypeKey) :
    (setting.asking (.ofKeys (resolver.completing answers root rootType))).Consistent
      (setting.PropertySites stops) := by
  rintro first second ⟨stop, name, isStop, rfl⟩ ⟨other, another, isOther, rfl⟩ kind question keys
  rw [Setting.answer_ofKeys, Setting.answer_ofKeys, keys]
  cases told : resolver.completing answers root rootType
      ((setting.site other (some another)).key kind question) with
  | ok answer => rfl
  | error source =>
    -- Only about the root there may be no answer, and the root is one stop.
    unfold Resolver.completing at told
    split at told
    · cases told
    · split at told
      · next isRoot =>
        have ofOther : Setting.idAt (.ok other) = some root.id := isRoot
        have ofStop : Setting.idAt (.ok stop) = some root.id :=
          (congrArg AnswerKey.bean keys).trans isRoot
        rw [Setting.stop_eq_of_id nodup isStop isOther ofStop ofOther]
        rfl
      · cases told

/-- About the root the completed answers are those of the resolver, if the given ones are. -/
theorem answers_completing {setting : Setting} {stops : List (Except ValidationError Stop)}
    (nodup : (Setting.idsOf stops).Nodup) {answers : List (AnswerKey × Bool)}
    (isRoot : .ok ⟨.bean root, metadata, .root⟩ ∈ stops)
    (given : ∀ (site : Site) kind question answer,
      answers.lookup (site.key kind question) = some answer →
        ∃ other, setting.PropertySites stops other ∧ other.key kind question = site.key kind question
          ∧ setting.answer other kind question = .ok answer)
    (name : String) (kind : ElementKind) (question : Question) :
    (setting.asking (.ofKeys (setting.environment.resolver.completing answers root
        setting.rootType))).answer
        (setting.site ⟨.bean root, metadata, .root⟩ (some name)) kind question
      = setting.answer (setting.site ⟨.bean root, metadata, .root⟩ (some name)) kind question := by
  let stop : Stop := ⟨.bean root, metadata, .root⟩
  let key := (setting.site stop (some name)).key kind question
  show (setting.asking _).answer (setting.site stop (some name)) kind question
    = setting.answer (setting.site stop (some name)) kind question
  rw [Setting.answer_ofKeys]
  cases known : answers.lookup key with
  | some answer =>
    obtain ⟨_, ⟨other, another, isOther, rfl⟩, keys, answered⟩ := given _ _ _ _ known
    have ofOther : Setting.idAt (.ok other) = some root.id := congrArg AnswerKey.bean keys
    have one : other = stop := Setting.stop_eq_of_id nodup isOther isRoot ofOther rfl
    subst one
    have names : another = name := Path.text_add_inj (congrArg AnswerKey.path keys)
    rw [names] at answered
    rw [answered, Resolver.completing, known]
    rfl
  | none =>
    have told : setting.environment.resolver.completing answers root setting.rootType key
        = setting.environment.resolver.answer question
          ((setting.site stop (some name)).request kind) := by
      have request : (setting.site stop (some name)).request kind
          = ⟨.bean root, .named key.path, setting.rootType, .root, kind⟩ := by
        have path : key.path = name := Path.text_root_add name
        rw [path]
        simp only [Site.request, Setting.site, stop, Path.removeLeaf_add]
        simp only [Path.add, Path.leaf_push]
      rw [Resolver.completing, known, request]
      exact if_pos rfl
    rw [told, Setting.answer_eq]
    cases setting.environment.resolver.answer question
      ((setting.site stop (some name)).request kind) <;> rfl

/-- What a validation of a bean reports and evaluates is the run over the stops from the bean, with
the answers of another resolver.  About the bean these are the answers of the setting. -/
structure Setting.Retraces (setting : Setting) (outcome : Outcome) (stop : Stop) (groups : Groups)
    (resolver : Resolver) (rest : List (Except ValidationError Stop)) (ledger : Ledger) : Prop where
  orderly : Setting.Orderly (.ok stop :: rest)
  typed : Setting.Typed (.ok stop :: rest)
  answers : ∀ name kind question,
    (setting.asking resolver).answer (setting.site stop (some name)) kind question
      = setting.answer (setting.site stop (some name)) kind question
  ran : (setting.asking resolver).call (.ok stop :: rest) groups .blank = .ok () ledger
  heard : outcome.heard = ledger.reported.reverse
  deeds : outcome.journal.filter Event.isDeed = ledger.deeds.reverse

/-- **A validation of a bean that succeeds is a run over stops**, whatever the resolver. -/
theorem exists_retraces (built : validator.cache.configuration.build root.type = .ok metadata)
    (planned : validator.plan heap (.bean root) requested = .ok plan)
    (succeeded : (validator.validate heap (.bean root) requested).failure = none) :
    ∃ resolver rest ledger, plan.setting.Retraces (validator.validate heap (.bean root) requested)
      ⟨.bean root, metadata, .root⟩ plan.groups resolver rest ledger := by
  obtain ⟨answers, recounts⟩ := validate_in_hindsight planned succeeded
  let stop : Stop := ⟨.bean root, metadata, .root⟩
  let told := validator.resolver.completing answers root plan.setting.rootType
  let resolver := Resolver.ofKeys told
  let asking := plan.setting.asking resolver
  have replayed : ((validator.asking resolver).validate heap (.bean root) requested).account
      = (validator.validate heap (.bean root) requested).account :=
    recounts.replays told fun key answer known => by simp only [told, Resolver.completing, known]
  have failures := congrArg Account.failure replayed
  have hearings : _ = (validator.validate heap (.bean root) requested).heard :=
    congrArg Account.heard replayed
  have journals : _ = (validator.validate heap (.bean root) requested).journal :=
    congrArg Account.journal replayed
  obtain ⟨rest, walked⟩ := asking.exists_itinerary root metadata
  let asked : Plan := ⟨asking, .bean root, some metadata, plan.groups⟩
  have planAsked : (validator.asking resolver).plan heap (.bean root) requested = .ok asked :=
    plan_asking resolver built planned
  have isStops : asked.stops = .ok stop :: rest := walked
  have orderly : Setting.Orderly (.ok stop :: rest) := isStops ▸ stops_orderly planAsked
  have typed : Setting.Typed (.ok stop :: rest) :=
    isStops ▸ fun stop isStop other isOther => metadata_eq_of_type planAsked isStop isOther
  have consistent : asking.Consistent (asking.PropertySites asked.stops) :=
    consistent_completing (isStops ▸ orderly.beans) validator.resolver answers plan.setting.rootType
  have asks : ∀ stop, .ok stop ∈ asked.stops →
      asking.AsksWithin (asking.PropertySites asked.stops) stop := fun stop member =>
    Setting.asksWithin_propertySites (stops_wellFormed planAsked stop member) member
  have shows := validate_shows planAsked consistent asks
  have encloses : plan.setting.Encloses (asking.PropertySites asked.stops)
      (validator.validate heap (.bean root) requested).journal := by
    intro bean own path entered
    rw [← journals] at entered
    exact asks _ (Setting.mem_stops_of_entered plan.groups (shows.entered entered))
  obtain ⟨ledger, ran, heard, deeds⟩ := shows.of_success (failures.trans succeeded)
  refine ⟨resolver, rest, ledger, orderly, typed, fun name kind question => ?_, ?_,
    hearings.symm.trans heard, ?_⟩
  · have same : (plan.setting.asking (.ofKeys (plan.setting.environment.resolver.completing answers
        root plan.setting.rootType))).answer (plan.setting.site stop (some name)) kind question
        = plan.setting.answer (plan.setting.site stop (some name)) kind question :=
      answers_completing (isStops ▸ orderly.beans) (isStops ▸ List.mem_cons_self)
        (recounts.given _ encloses) name kind question
    have own : plan.setting.environment.resolver = validator.resolver := by
      rw [environment_of_planned planned]
      rfl
    rw [own] at same
    exact same
  · rw [Plan.run, isStops] at ran
    exact ran
  · rw [← journals]
    exact deeds

namespace Setting.Retraces

variable {setting : Setting} {outcome : Outcome} {stop : Stop} {groups : Groups} {resolver : Resolver}
  {rest : List (Except ValidationError Stop)} {ledger : Ledger}
  (retraces : setting.Retraces outcome stop groups resolver rest ledger)
  (wellFormed : stop.metadata.WellFormed)

include retraces wellFormed

/-- The duties of the bean find the same with the answers of the other resolver. -/
theorem findings_eq {duty : Duty} (own : duty ∈ stop.metadata.duties) :
    (setting.asking resolver).findings stop duty = setting.findings stop duty := by
  refine Setting.findings_asking fun asks kind question => ?_
  rcases MetaBean.mem_duties own with ⟨property, -, named, -⟩ | ⟨-, ofType⟩
  · rw [named]
    exact retraces.answers property.name kind question
  · rw [wellFormed.constraints duty.node ofType duty.node (.self duty.node)] at asks
    cases asks

/-- A run over the constraints of a property that succeeds covers the property in the whole run. -/
theorem covers (isBean : stop.bean.bean?.isSome) {property : MetaProperty}
    (member : property ∈ stop.metadata.properties) {lone : Ledger}
    (ranAlone : setting.callProperty stop property groups .blank = .ok () lone) :
    (setting.asking resolver).CoversProperty stop property ledger lone := by
  have calls : (setting.asking resolver).callProperty stop property groups
      = setting.callProperty stop property groups :=
    Setting.callProperty_asking (fun duty own => retraces.findings_eq wellFormed
      (MetaBean.mem_duties_of_mem_dutiesOf member own)) groups
  rw [← calls] at ranAlone
  have blank : (setting.asking resolver).CoversProperty stop property .blank .blank :=
    ⟨Ledger.settled_blank, fun duty _ claimed => claimed⟩
  rcases (Setting.call_outlasted isBean wellFormed member
      (fun other => Setting.apart_of_nodup retraces.orderly.beans) groups).follows _ _ _ blank ranAlone
    with ⟨later, ran, covers, -⟩ | ⟨-, error, later, ran⟩
  · rw [retraces.ran] at ran
    cases ran
    exact covers
  · rw [retraces.ran] at ran
    cases ran

end Setting.Retraces

/-- **What a validation reports of a property of its root, validating the property reports too.** -/
theorem validateProperty_reports (root : BeanRef)
    (built : validator.cache.configuration.build root.type = .ok metadata)
    {property : MetaProperty} (member : property ∈ metadata.properties)
    (parses : Path.parse property.name = .ok (Path.root.add property.name))
    (requested : List TypeKey) :
    let setting := validator.setting heap (.bean root) (some metadata)
    let stop : Stop := ⟨.bean root, metadata, .root⟩
    let whole := validator.validate heap (.bean root) requested
    let alone := validator.validateProperty heap (.bean root) property.name requested
    whole.failure = none → alone.failure = none →
      (∀ violation ∈ whole.heard, violation.leafBean.map (·.id) = some root.id →
        ∃ duty ∈ metadata.duties, whole.ReportsBy setting stop duty violation)
      ∧ ∀ duty ∈ metadata.dutiesOf property, ∀ violation,
        whole.ReportsBy setting stop duty violation → violation ∈ alone.heard := by
  intro setting stop whole alone wholeSucceeded aloneSucceeded
  obtain ⟨plan, planned⟩ := planned_of_success wholeSucceeded
  have isPlan := plan_of_bean built planned
  have resolved := groups?_of_planned planned
  obtain ⟨resolver, rest, ledger, retraces⟩ := exists_retraces built planned wholeSucceeded
  rw [show plan.setting = setting from congrArg Plan.setting isPlan] at retraces
  have wellFormed : stop.metadata.WellFormed := Configuration.build_wellFormed built
  have accounts := Setting.call_accounts retraces.orderly retraces.typed retraces.ran
  have done : ∀ duty, setting.Evaluated whole.journal stop duty
      ↔ setting.Evaluated ledger.deeds stop duty :=
    fun duty => Setting.evaluated_iff retraces.deeds
  refine ⟨fun violation heard ofRoot => ?_, fun duty own violation reports => ?_⟩
  · -- What is reported was found where it was evaluated, and on the root that is this stop.
    have reported : violation ∈ ledger.reported := by
      rw [retraces.heard] at heard
      exact List.mem_reverse.mp heard
    obtain ⟨other, isOther, duty, own, evaluated, found⟩ := accounts.found violation reported
    have ofOther : Setting.idAt (.ok other) = some root.id := by
      rw [Setting.leafBean_of_findings found] at ofRoot
      exact ofRoot
    have one : other = stop := Setting.stop_eq_of_id retraces.orderly.beans isOther
      List.mem_cons_self ofOther rfl
    subst one
    exact ⟨duty, own, heard, (done duty).mpr evaluated, retraces.findings_eq wellFormed own ▸ found⟩
  · -- What was evaluated has been claimed, so it has been claimed alone as well, and has been reported.
    have inside := MetaBean.mem_duties_of_mem_dutiesOf member own
    have cleared : setting.Cleared (.bean root) stop := .start rfl built
    have shows : alone.Shows _ :=
      validateProperty_shows_of_parse built cleared member parses requested
    rw [resolved] at shows
    obtain ⟨lone, ranAlone, heardAlone, -⟩ := shows.of_success aloneSucceeded
    have covers := retraces.covers wellFormed rfl member ranAlone
    have claimed := accounts.claims stop List.mem_cons_self rfl duty inside
      ((done duty).mp reports.evaluated)
    obtain ⟨-, reported⟩ := covers.settled stop List.mem_cons_self duty inside
      (covers.claims duty own claimed)
    rw [heardAlone, List.mem_reverse]
    refine reported violation ?_
    rw [retraces.findings_eq wellFormed inside]
    exact reports.found

end Calls

/-! ### In the ring -/

/-- Only the name of a node has constraints. -/
theorem Ring.mem_dutiesOf_name {metadata : MetaBean} {property : MetaProperty}
    (built : Ring.configuration.build Ring.node = .ok metadata)
    (member : property ∈ metadata.properties) (named : property.name = "name") {duty : Duty}
    (own : duty ∈ metadata.duties) : duty ∈ metadata.dutiesOf property := by
  have known : ((Ring.configuration.build Ring.node).toOption.all fun metadata =>
      metadata.constraints.isEmpty && metadata.properties.all fun property =>
        property.name == "name" || property.constraints.isEmpty) = true := by decide +kernel
  rw [built] at known
  simp only [Except.toOption, Option.all_some, Bool.and_eq_true, List.isEmpty_iff, List.all_eq_true,
    Bool.or_eq_true, beq_iff_eq] at known
  obtain ⟨noneOfType, onlyName⟩ := known
  rcases List.mem_append.mp own with ofProperty | ofType
  · obtain ⟨other, inside, of⟩ := List.mem_flatMap.mp ofProperty
    rcases onlyName other inside with isName | empty
    · have wellFormed := Configuration.build_wellFormed built
      obtain rfl : other = property :=
        List.inj_on_of_nodup_map wellFormed.names inside member (isName.trans named.symm)
      exact of
    · rw [empty] at of
      cases of
  · rw [noneOfType] at ofType
    cases ofType

/-- What is missing of the first node of the ring is reported by both calls. -/
theorem validateProperty_reports_ring :
    let whole := Ring.validator.validate (Ring.heap .null .null) (.bean Ring.first)
      [Ring.basic, Ring.ordered]
    let alone := Ring.validator.validateProperty (Ring.heap .null .null) (.bean Ring.first) "name"
      [Ring.basic, Ring.ordered]
    whole.failure = none ∧ alone.failure = none
      ∧ ∃ violation ∈ whole.heard, violation.leafBean.map (·.id) = some Ring.first.id
        ∧ violation ∈ alone.heard := by
  intro whole alone
  obtain ⟨metadata, property, built, member, named, -⟩ := Ring.exists_name
  have parses : Path.parse property.name = .ok (Path.root.add property.name) := by
    rw [named]
    decide +kernel
  have builtFirst : Ring.validator.cache.configuration.build Ring.first.type = .ok metadata := built
  have wholeSucceeded : whole.failure = none := Option.isNone_iff_eq_none.mp (by decide +kernel)
  have aloneSucceeded : alone.failure = none := Option.isNone_iff_eq_none.mp (by decide +kernel)
  have onFirst : (whole.heard.any fun violation =>
      violation.leafBean.map (·.id) == some Ring.first.id) = true := by decide +kernel
  obtain ⟨ofDuty, reported⟩ := validateProperty_reports Ring.first builtFirst member parses
    [Ring.basic, Ring.ordered] wholeSucceeded (named ▸ aloneSucceeded)
  rw [named] at reported
  obtain ⟨violation, heard, ofRoot⟩ := List.any_eq_true.mp onFirst
  obtain ⟨duty, own, reportedBy⟩ := ofDuty violation heard (beq_iff_eq.mp ofRoot)
  exact ⟨wholeSucceeded, aloneSucceeded, violation, heard, beq_iff_eq.mp ofRoot,
    reported duty (Ring.mem_dutiesOf_name built member named own) violation reportedBy⟩

end GraphValidation
