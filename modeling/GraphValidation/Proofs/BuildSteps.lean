/-
**Building metadata, one step at a time.**

Each declaration of a type in force is applied in steps: its constraints at once, then one property
after the other.  What is reported comes from the first step that fails, so it can be read off that
step and the metadata that the steps before it make.

* `Configuration.steps`, `Configuration.perform` — the steps to the metadata of a type.
* `Configuration.build_eq` — metadata is built by these steps.
* `Configuration.property?_of_steps` — what some steps make of a property.
* `Configuration.perform_eq_error` — **why a step fails**.
-/
import GraphValidation.Proofs.Compositions

namespace GraphValidation

/-! ### Folds over what is below items -/

/-- A fold over all that is below some items goes through them one after the other. -/
theorem foldlM_flatMap {ε α β γ : Type} (step : β → α → Except ε β) (below : γ → List α)
    (items : List γ) (first : β) :
    (items.flatMap below).foldlM step first
      = items.foldlM (fun state item => (below item).foldlM step state) first := by
  induction items generalizing first with
  | nil => rfl
  | cons item rest ih =>
    rw [List.flatMap_cons, List.foldlM_append, List.foldlM_cons]
    exact congrArg _ (funext ih)

/-- A fold that fails does so at one of its steps. -/
theorem exists_of_foldlM_eq_error {ε α β : Type} {step : β → α → Except ε β} {items : List α}
    {first : β} {error : ε} (failed : items.foldlM step first = .error error) :
    ∃ before item after middle, items = before ++ item :: after
      ∧ before.foldlM step first = .ok middle ∧ step middle item = .error error := by
  induction items generalizing first with
  | nil => cases failed
  | cons item rest ih =>
    rw [List.foldlM_cons] at failed
    rcases bind_eq_error.mp failed with here | ⟨next, stepped, failed⟩
    · exact ⟨[], item, rest, first, rfl, rfl, here⟩
    · obtain ⟨before, later, after, middle, split, folded, failed⟩ := ih failed
      refine ⟨item :: before, later, after, middle, by rw [split, List.cons_append], ?_, failed⟩
      rw [List.foldlM_cons, stepped]
      exact folded

/-! ### Steps -/

/-- What is applied at once: the constraints that a declaration makes of a type, or a declaration of
a property. -/
inductive BuildStep where
  | constraints (level : TypeKey) (declarations : List ConstraintDeclaration)
  | property (level : TypeKey) (declaration : PropertyDeclaration)

namespace BuildStep

/-- The steps of a declaration of a type. -/
def ofBean (level : TypeKey) (bean : BeanDeclaration) : List BuildStep :=
  .constraints level bean.constraints :: bean.properties.map (.property level)

/-- What a step declares of the property of a name. -/
def declarationsOf (name : String) : BuildStep → List (TypeKey × PropertyDeclaration)
  | constraints _ _ => []
  | property level declaration => if declaration.name = name then [(level, declaration)] else []

theorem declarationsOf_ofBean (name : String) (level : TypeKey) (bean : BeanDeclaration) :
    (ofBean level bean).flatMap (declarationsOf name)
      = (bean.properties.filter (·.name = name)).map fun property => (level, property) := by
  rw [map_filter_eq_flatMap, ofBean, List.flatMap_cons, List.flatMap_map]
  refine List.flatMap_congr fun property _ => ?_
  simp [declarationsOf]

end BuildStep

namespace Configuration

/-- The steps to the metadata of a type. -/
def steps (configuration : Configuration) (type : TypeKey) : List BuildStep :=
  (configuration.inForce type).flatMap fun (level, bean) => BuildStep.ofBean level bean

/-- Metadata after one more step. -/
def perform (configuration : Configuration) (bean : MetaBean) :
    BuildStep → Except ConfigError MetaBean
  | .constraints level declarations => do
    let nodes ← Composition.collect
      (Composition.build configuration.types configuration.catalog level level none) declarations
    .ok { bean with constraints := bean.constraints ++ nodes }
  | .property level declaration => configuration.applyProperty level bean declaration

variable {configuration : Configuration} {type : TypeKey} {bean later : MetaBean}
  {step : BuildStep} {performed : List BuildStep} {error : ConfigError}

theorem apply_eq (level : TypeKey) (bean : MetaBean) (declaration : BeanDeclaration) :
    configuration.apply level bean declaration
      = (BuildStep.ofBean level declaration).foldlM configuration.perform bean := by
  simp only [apply, BuildStep.ofBean, List.foldlM_cons, List.foldlM_map, perform, bind_assoc]
  rfl

/-- **Metadata is built by the steps of the declarations in force.** -/
theorem build_eq (configuration : Configuration) (type : TypeKey) :
    configuration.build type = (do
      let info ← configuration.types.require type
      let bean ← (configuration.steps type).foldlM configuration.perform (.blank type)
      let own := configuration.declarationsFor type
      let groupSequence ← configuration.defaultSequence info own
      .ok { bean with id := lastSome? (·.id) own, groupSequence }) := by
  have stepwise : (configuration.levels type).foldlM configuration.applyLevel (.blank type)
      = (configuration.steps type).foldlM configuration.perform (.blank type) := by
    rw [steps, foldlM_flatMap]
    simp only [← apply_eq]
    exact foldlM_nested configuration.apply _ _ _
  rw [build, stepwise]

/-- The steps declare of a property what is declared in force. -/
theorem declarationsOf_steps (configuration : Configuration) (type : TypeKey) (name : String) :
    (configuration.steps type).flatMap (BuildStep.declarationsOf name)
      = configuration.declarationsOf type name := by
  rw [steps, List.flatMap_assoc]
  exact List.flatMap_congr fun (level, bean) _ => BuildStep.declarationsOf_ofBean name level bean

/-- A step leaves the type, and is to a property what it declares of it. -/
theorem perform_property? (ofType : bean.type = type)
    (done : configuration.perform bean step = .ok later) (name : String) :
    later.type = type
      ∧ (step.declarationsOf name).foldlM (configuration.redeclare type) (bean.property? name)
        = .ok (later.property? name) := by
  cases step with
  | constraints level declarations =>
    simp only [perform, bind_eq_ok] at done
    obtain ⟨nodes, -, same⟩ := done
    cases same
    exact ⟨ofType, rfl⟩
  | property level declaration =>
    refine ⟨(applyProperty_type done).trans ofType, ?_⟩
    have one := applyProperty_property? ofType done name
    by_cases here : declaration.name = name
    · rw [if_pos here] at one
      rw [BuildStep.declarationsOf, if_pos here, List.foldlM_cons, one]
      rfl
    · rw [if_neg here] at one
      rw [BuildStep.declarationsOf, if_neg here, one]
      rfl

theorem type_of_steps (folded : performed.foldlM configuration.perform (.blank type) = .ok bean) :
    bean.type = type :=
  foldlM_keeps performed (fun _ _ _ ofType done => (perform_property? ofType done "").1) rfl folded

/-- **What some steps make of a property** is what they declare of it, one after the other. -/
theorem property?_of_steps
    (folded : performed.foldlM configuration.perform (.blank type) = .ok bean) (name : String) :
    (performed.flatMap (BuildStep.declarationsOf name)).foldlM (configuration.redeclare type) none
      = .ok (bean.property? name) := by
  have viewed : (performed.flatMap (BuildStep.declarationsOf name)).foldlM
      (configuration.redeclare type) ((MetaBean.blank type).property? name)
      = .ok (bean.property? name) := by
    refine foldlM_views (fun bean : MetaBean => bean.type = type) (·.property? name) ?_ rfl folded
    exact fun before step after ofType done => perform_property? ofType done name
  exact viewed

/-! ### Steps that fail -/

mutual

theorem requireRef_eq_error {types : TypeSystem} :
    ∀ {ref : TypeRef}, requireRef types ref = .error error → ∃ key, error = .unknownType key
  | .mk raw args, failed => by
    unfold requireRef at failed
    rcases bind_eq_error.mp failed with unknown | ⟨_, -, failed⟩
    · exact ⟨raw, (TypeSystem.require_eq_error.mp unknown).2⟩
    · exact requireRefs_eq_error failed

theorem requireRefs_eq_error {types : TypeSystem} :
    ∀ {refs : List TypeRef}, requireRefs types refs = .error error → ∃ key, error = .unknownType key
  | ref :: rest, failed => by
    unfold requireRefs at failed
    rcases bind_eq_error.mp failed with unknown | ⟨_, -, failed⟩
    · exact requireRef_eq_error unknown
    · exact requireRefs_eq_error failed

end

theorem cascadeTarget_eq_error {types : TypeSystem} {declared : TypeRef}
    (failed : cascadeTarget types declared = .error error) : ∃ key, error = .unknownType key := by
  unfold cascadeTarget at failed
  split at failed
  · cases failed
  · rename_i element reached
    rcases bind_eq_error.mp failed with unknown | ⟨_, -, done⟩
    · exact ⟨element.raw, (TypeSystem.require_eq_error.mp unknown).2⟩
    · cases done

theorem defaultSequence_eq_error {info : TypeInfo} {own : List BeanDeclaration}
    (failed : configuration.defaultSequence info own = .error error) :
    (∃ key, error = .unknownType key)
      ∨ ∃ host defect, error = .invalidGroupSequence host defect := by
  unfold defaultSequence at failed
  split at failed
  · cases failed
  split at failed
  · cases failed
  rcases bind_eq_error.mp failed with unknown | ⟨_, -, failed⟩
  · exact .inl (Composition.requireAll_eq_error unknown)
  rcases bind_eq_error.mp failed with invalid | ⟨_, -, done⟩
  · refine .inr ⟨info.key, ?_⟩
    unfold checkDefaultSequence at invalid
    split at invalid
    · exact ⟨.empty, by cases invalid; rfl⟩
    split at invalid
    · exact ⟨.containsDefault, by cases invalid; rfl⟩
    split at invalid
    · exact ⟨.missingHostType, by cases invalid; rfl⟩
    · cases invalid
  · cases done

theorem reports_of_collect {owner target : TypeKey} {access : Option Access}
    {declarations : List ConstraintDeclaration}
    (failed : Composition.collect
      (Composition.build configuration.types configuration.catalog owner target access)
      declarations = .error error) : Composition.Reports configuration.catalog error := by
  obtain ⟨declaration, -, failed⟩ := Composition.collect_eq_error failed
  exact Composition.reports_of_grow failed

theorem reports_of_unknown {catalog : Catalog} (unknown : ∃ key, error = .unknownType key) :
    Composition.Reports catalog error := by
  obtain ⟨key, rfl⟩ := unknown
  exact .inl (.unknownType key)

/-- **Why a step fails**: something is not found or not set up, or a declared type does not agree
with what is known of the property. -/
theorem perform_eq_error (failed : configuration.perform bean step = .error error) :
    Composition.Reports configuration.catalog error
      ∨ ∃ level declaration, step = .property level declaration
        ∧ requireRef configuration.types declaration.declared = .ok ()
        ∧ mergeDeclared configuration.types bean.type declaration.name
          ((bean.property? declaration.name).getD
            (.plain declaration.name declaration.declared)).declared declaration.declared
          = .error error := by
  cases step with
  | constraints level declarations =>
    rcases bind_eq_error.mp failed with failed | ⟨_, -, done⟩
    · exact .inl (reports_of_collect failed)
    · cases done
  | property level declaration =>
    rcases bind_eq_error.mp failed with unknown | ⟨_, registered, failed⟩
    · exact .inl (reports_of_unknown (requireRef_eq_error unknown))
    rcases bind_eq_error.mp failed with failed | ⟨_, -, done⟩
    · rcases bind_eq_error.mp failed with unmerged | ⟨_, -, failed⟩
      · exact .inr ⟨level, declaration, rfl, registered, unmerged⟩
      rcases bind_eq_error.mp failed with failed | ⟨_, -, failed⟩
      · exact .inl (reports_of_collect failed)
      split at failed
      · rcases bind_eq_error.mp failed with unknown | ⟨_, -, done⟩
        · exact .inl (reports_of_unknown (cascadeTarget_eq_error unknown))
        · cases done
      · cases failed
    · cases done

/-- **Why metadata is not built**: a step fails after others that do not, or something is not as it
should be of the type or of its sequence. -/
theorem build_eq_error (failed : configuration.build type = .error error) :
    (∃ before step after bean, configuration.steps type = before ++ step :: after
        ∧ before.foldlM configuration.perform (.blank type) = .ok bean
        ∧ configuration.perform bean step = .error error)
      ∨ (∃ key, error = .unknownType key)
      ∨ ∃ host defect, error = .invalidGroupSequence host defect := by
  rw [build_eq] at failed
  rcases bind_eq_error.mp failed with unknown | ⟨info, -, failed⟩
  · exact .inr (.inl ⟨type, (TypeSystem.require_eq_error.mp unknown).2⟩)
  rcases bind_eq_error.mp failed with failed | ⟨_, -, failed⟩
  · obtain ⟨before, step, after, bean, split, folded, failed⟩ := exists_of_foldlM_eq_error failed
    exact .inl ⟨before, step, after, bean, split, folded, failed⟩
  rcases bind_eq_error.mp failed with failed | ⟨_, -, done⟩
  · exact .inr (defaultSequence_eq_error failed)
  · cases done

end Configuration

end GraphValidation
