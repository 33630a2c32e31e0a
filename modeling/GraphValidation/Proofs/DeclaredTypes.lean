/-
**The declared type of a property.**

A property may be declared many times.  Its declared type is compared with that of each further
declaration, and the more specific one is kept; where neither is, a conflict is reported.  So the
type that is kept is always the most specific one of all so far, and a conflict means that there is
none.  What comes later cannot make up for that: a type below both comes too late.

* `TypeSystem.Settled` — of declared types in order, those up to each one have a most specific one.
* `Configuration.Clash` — a declaration with which they have none any more.
* `Configuration.mostSpecific_of_redeclared` — **the type that is kept is the most specific one**.
* `Configuration.build_narrows` — **which type a property has, and when a conflict is reported**.
* `build_crossed` — a conflict is reported although a most specific type is declared.
-/
import GraphValidation.Proofs.BuildSteps
import GraphValidation.Proofs.CascadeTargets
import GraphValidation.Proofs.Specificity

namespace GraphValidation

namespace TypeSystem

/-- Of types in order, those up to each one have a most specific one. -/
def Settled (types : TypeSystem) (keys : List TypeKey) : Prop :=
  ∀ before after, keys = before ++ after → before ≠ [] → ∃ key, types.MostSpecific before key

variable {types : TypeSystem} {keys : List TypeKey} {current declared key : TypeKey}

theorem mostSpecific_singleton (key : TypeKey) : types.MostSpecific [key] key where
  mem := List.mem_singleton_self key
  below other inside := by
    rw [List.mem_singleton.mp inside]
    exact isAssignable_iff.mpr (.inl rfl)

/-- A type that is not more specific than the most specific one makes no difference. -/
theorem MostSpecific.concat_of_below (specific : types.MostSpecific keys current)
    (wider : types.isAssignable declared current) :
    types.MostSpecific (keys ++ [declared]) current where
  mem := List.mem_append_left _ specific.mem
  below other inside := by
    rcases List.mem_append.mp inside with earlier | last
    · exact specific.below other earlier
    · rwa [List.mem_singleton.mp last]

theorem settled_nil : types.Settled [] := by
  intro before after split nonempty
  exact absurd (List.append_eq_nil_iff.mp split.symm).1 nonempty

theorem settled_concat : types.Settled (keys ++ [declared])
    ↔ types.Settled keys ∧ ∃ key, types.MostSpecific (keys ++ [declared]) key := by
  constructor
  · intro settled
    refine ⟨fun before after split => settled before (after ++ [declared]) ?_, ?_⟩
    · rw [split, List.append_assoc]
    · exact settled (keys ++ [declared]) [] (List.append_nil _).symm (by simp)
  · rintro ⟨settled, all⟩ before after split nonempty
    rcases List.eq_nil_or_concat after with rfl | ⟨earlier, last, rfl⟩
    · rw [List.append_nil] at split
      exact split ▸ all
    · rw [List.concat_eq_append, ← List.append_assoc] at split
      exact settled before earlier (List.append_inj_left' split rfl) nonempty

/-- Where the first one of some types is the most specific one, nothing can unsettle them. -/
theorem MostSpecific.settled (specific : types.MostSpecific (key :: keys) key) :
    types.Settled (key :: keys) := by
  intro before after split nonempty
  obtain ⟨first, rest, rfl⟩ := List.exists_cons_of_ne_nil nonempty
  obtain ⟨rfl, -⟩ := List.cons.inj split
  refine ⟨key, List.mem_cons_self, fun other inside => specific.below other ?_⟩
  rw [split]
  exact List.mem_append_left after inside

section Order

variable (summit : types.parents .object = [])

include summit

/-- A type that is more specific than the most specific one takes its place. -/
theorem MostSpecific.concat_of_above (specific : types.MostSpecific keys current)
    (finer : types.isAssignable current declared) :
    types.MostSpecific (keys ++ [declared]) declared where
  mem := by simp
  below other inside := by
    rcases List.mem_append.mp inside with earlier | last
    · exact isAssignable_trans summit (specific.below other earlier) finer
    · rw [List.mem_singleton.mp last]
      exact isAssignable_iff.mpr (.inl rfl)

/-- One more type leaves a most specific one if and only if it can be compared with the one that
was. -/
theorem MostSpecific.exists_concat (specific : types.MostSpecific keys current) :
    (∃ key, types.MostSpecific (keys ++ [declared]) key)
      ↔ types.isAssignable current declared ∨ types.isAssignable declared current := by
  constructor
  · rintro ⟨key, lowest⟩
    have below := lowest.below current (List.mem_append_left _ specific.mem)
    rcases List.mem_append.mp lowest.mem with earlier | last
    · have same : current = key :=
        isAssignable_antisymm summit below (specific.below key earlier)
      subst same
      exact .inr (lowest.below declared (by simp))
    · rw [List.mem_singleton.mp last] at below
      exact .inl below
  · rintro (finer | wider)
    · exact ⟨declared, specific.concat_of_above summit finer⟩
    · exact ⟨current, specific.concat_of_below wider⟩

/-- Types of which any two can be compared are settled in any order. -/
theorem settled_of_comparable
    (comparable : ∀ upper ∈ keys, ∀ lower ∈ keys,
      types.isAssignable upper lower ∨ types.isAssignable lower upper) : types.Settled keys := by
  induction keys using List.reverseRecOn with
  | nil => exact settled_nil
  | append_singleton keys declared ih =>
    have settled := ih fun upper isUpper lower isLower =>
      comparable upper (List.mem_append_left _ isUpper) lower (List.mem_append_left _ isLower)
    refine settled_concat.mpr ⟨settled, ?_⟩
    by_cases first : keys = []
    · rw [first]
      exact ⟨declared, mostSpecific_singleton declared⟩
    · obtain ⟨current, specific⟩ := settled keys [] (List.append_nil keys).symm first
      refine (specific.exists_concat summit).mpr (comparable current ?_ declared (by simp))
      exact List.mem_append_left _ specific.mem

end Order

end TypeSystem

/-! ### One more declaration -/

namespace Configuration

section Merge

variable {types : TypeSystem} {keys : List TypeKey} {bean : TypeKey} {name : String}
  {current declared : TypeRef} (summit : types.parents .object = [])
  (specific : types.MostSpecific keys current.raw)

include summit specific

/-- **The type that is kept is the most specific one.** -/
theorem mostSpecific_of_merged {merged : TypeRef}
    (accepted : mergeDeclared types bean name current declared = .ok merged) :
    types.MostSpecific (keys ++ [declared.raw]) merged.raw := by
  unfold mergeDeclared at accepted
  split at accepted
  · rename_i same
    cases accepted
    exact specific.concat_of_below (same ▸ TypeSystem.isAssignable_iff.mpr (.inl rfl))
  split at accepted
  · rename_i finer
    cases accepted
    exact specific.concat_of_above summit finer
  split at accepted
  · rename_i wider
    cases accepted
    exact specific.concat_of_below wider
  · cases accepted

/-- A conflict is reported exactly if there is no most specific type any more. -/
theorem mergeDeclared_eq_error {error : ConfigError} :
    mergeDeclared types bean name current declared = .error error
      ↔ (∀ key, ¬ types.MostSpecific (keys ++ [declared.raw]) key)
        ∧ error = .conflictingMetadata bean name current.raw declared.raw := by
  rw [← not_exists, specific.exists_concat summit, not_or]
  constructor
  · intro failed
    unfold mergeDeclared at failed
    split at failed
    · cases failed
    split at failed
    · cases failed
    split at failed
    · cases failed
    · rename_i finer wider
      exact ⟨⟨finer, wider⟩, (Except.error.inj failed).symm⟩
  · rintro ⟨⟨finer, wider⟩, rfl⟩
    have other : current.raw ≠ declared.raw := fun same =>
      finer (TypeSystem.isAssignable_iff.mpr (.inl same))
    rw [mergeDeclared, if_neg other, if_neg finer, if_neg wider]

end Merge

/-! ### The declarations of a property -/

/-- The types that a property is declared with, in the order in which the declarations apply. -/
def declaredTypes (configuration : Configuration) (type : TypeKey) (name : String) :
    List TypeKey :=
  (configuration.declarationsOf type name).map (·.2.declared.raw)

end Configuration

/-- The types that some steps declare a property with. -/
def BuildStep.declaredTypes (name : String) (steps : List BuildStep) : List TypeKey :=
  (steps.flatMap (declarationsOf name)).map (·.2.declared.raw)

namespace BuildStep

variable {name : String}

theorem declaredTypes_append (before after : List BuildStep) :
    declaredTypes name (before ++ after)
      = declaredTypes name before ++ declaredTypes name after := by
  rw [declaredTypes, List.flatMap_append, List.map_append, declaredTypes, declaredTypes]

theorem declaredTypes_property (level : TypeKey) (declaration : PropertyDeclaration) :
    declaredTypes declaration.name [property level declaration] = [declaration.declared.raw] := by
  simp [declaredTypes, declarationsOf]

/-- A step declares a property, or makes no difference to its types. -/
theorem declares_or_silent (name : String) (step : BuildStep) :
    (∃ level declaration, step = property level declaration ∧ declaration.name = name)
      ∨ declaredTypes name [step] = [] := by
  cases step with
  | constraints level declarations => exact .inr rfl
  | property level declaration =>
    by_cases here : declaration.name = name
    · exact .inl ⟨level, declaration, rfl, here⟩
    · exact .inr (by simp [declaredTypes, declarationsOf, here])

theorem declaredTypes_steps (configuration : Configuration) (type : TypeKey) (name : String) :
    declaredTypes name (configuration.steps type) = configuration.declaredTypes type name := by
  rw [declaredTypes, Configuration.declarationsOf_steps, Configuration.declaredTypes]

end BuildStep

namespace Configuration

/-- A declaration with which there is no most specific one any more among the declared types of a
property, and the most specific one before it. -/
structure Clash (configuration : Configuration) (type : TypeKey) (before : List BuildStep)
    (level : TypeKey) (declaration : PropertyDeclaration) (current : TypeKey) : Prop where
  next : ∃ after, configuration.steps type = before ++ .property level declaration :: after
  current : configuration.types.MostSpecific
    (BuildStep.declaredTypes declaration.name before) current
  none : ∀ key, ¬ configuration.types.MostSpecific
    (BuildStep.declaredTypes declaration.name before ++ [declaration.declared.raw]) key

variable {configuration : Configuration} {type : TypeKey}

/-- One more declaration narrows the declared type. -/
theorem redeclare_declared {known later : Option MetaProperty}
    {declared : TypeKey × PropertyDeclaration}
    (redeclared : configuration.redeclare type known declared = .ok later) :
    ∃ property, later = some property
      ∧ mergeDeclared configuration.types type declared.2.name
          (known.getD (.plain declared.2.name declared.2.declared)).declared declared.2.declared
        = .ok property.declared := by
  obtain ⟨property, same, redeclares⟩ := redeclare_eq_ok redeclared
  exact ⟨property, same, redeclares.declared⟩

/-- Types that do not stay settled under some steps clash at one of them. -/
theorem exists_clash {name : String} {performed : List BuildStep}
    (unsettled : ¬ configuration.types.Settled (BuildStep.declaredTypes name performed)) :
    ∃ before level declaration after current,
      performed = before ++ .property level declaration :: after ∧ declaration.name = name
        ∧ configuration.types.MostSpecific (BuildStep.declaredTypes name before) current
        ∧ ∀ key, ¬ configuration.types.MostSpecific
          (BuildStep.declaredTypes name before ++ [declaration.declared.raw]) key := by
  induction performed using List.reverseRecOn with
  | nil => exact absurd TypeSystem.settled_nil unsettled
  | append_singleton performed step ih =>
    by_cases settled : configuration.types.Settled (BuildStep.declaredTypes name performed)
    · -- It is the last step that unsettles the types, so it declares the property.
      rw [BuildStep.declaredTypes_append] at unsettled
      rcases BuildStep.declares_or_silent name step with ⟨level, declaration, rfl, rfl⟩ | silent
      · rw [BuildStep.declaredTypes_property, TypeSystem.settled_concat] at unsettled
        have none := not_exists.mp (not_and.mp unsettled settled)
        have before : BuildStep.declaredTypes declaration.name performed ≠ [] := by
          intro first
          rw [first] at none
          exact none _ (TypeSystem.mostSpecific_singleton _)
        obtain ⟨current, specific⟩ := settled _ [] (List.append_nil _).symm before
        exact ⟨performed, level, declaration, [], current, rfl, rfl, specific, none⟩
      · rw [silent, List.append_nil] at unsettled
        exact absurd settled unsettled
    · obtain ⟨before, level, declaration, after, current, rfl, found⟩ := ih settled
      exact ⟨before, level, declaration, after ++ [step], current, by simp, found⟩

/-- Declared types are settled if and only if none of them clashes with those before it. -/
theorem not_settled_iff {name : String} :
    ¬ configuration.types.Settled (configuration.declaredTypes type name)
      ↔ ∃ before level declaration current,
        configuration.Clash type before level declaration current ∧ declaration.name = name := by
  constructor
  · intro unsettled
    rw [← BuildStep.declaredTypes_steps] at unsettled
    obtain ⟨before, level, declaration, after, current, split, rfl, specific, none⟩ :=
      exists_clash unsettled
    exact ⟨before, level, declaration, current, ⟨⟨after, split⟩, specific, none⟩, rfl⟩
  · rintro ⟨before, level, declaration, current, ⟨⟨after, split⟩, -, none⟩, rfl⟩ settled
    rw [← BuildStep.declaredTypes_steps, split, ← List.singleton_append, ← List.append_assoc,
      BuildStep.declaredTypes_append, BuildStep.declaredTypes_append,
      BuildStep.declaredTypes_property] at settled
    obtain ⟨key, specific⟩ := settled _ _ rfl (by simp)
    exact none key specific

section Steps

variable (summit : configuration.types.parents .object = [])

include summit

/-- **The declared type of a property is the most specific one of all that are declared.** -/
theorem mostSpecific_of_redeclared {declarations : List (TypeKey × PropertyDeclaration)}
    {property : MetaProperty}
    (folded : declarations.foldlM (configuration.redeclare type) none = .ok (some property)) :
    configuration.types.MostSpecific (declarations.map (·.2.declared.raw))
      property.declared.raw := by
  induction declarations using List.reverseRecOn generalizing property with
  | nil => cases folded
  | append_singleton declarations declared ih =>
    simp only [List.foldlM_append, List.foldlM_cons, List.foldlM_nil, bind_eq_ok] at folded
    obtain ⟨known, folded, _, redeclared, same⟩ := folded
    cases same
    obtain ⟨property, same, accepted⟩ := redeclare_declared redeclared
    cases same
    rw [List.map_append]
    cases known with
    | none =>
      have first : declarations = [] := by
        by_contra nonempty
        exact nomatch (isSome_of_redeclared folded).mpr nonempty
      subst first
      have own : property.declared = declared.2.declared := (mergeDeclared_eq accepted).elim id id
      rw [own]
      exact TypeSystem.mostSpecific_singleton _
    | some before => exact mostSpecific_of_merged summit (ih folded) accepted

/-- A property that is declared is known. -/
theorem exists_of_redeclared {declarations : List (TypeKey × PropertyDeclaration)}
    {known : Option MetaProperty}
    (folded : declarations.foldlM (configuration.redeclare type) none = .ok known)
    (declared : declarations.map (·.2.declared.raw) ≠ []) :
    ∃ property, known = some property
      ∧ configuration.types.MostSpecific (declarations.map (·.2.declared.raw))
        property.declared.raw := by
  have some := (isSome_of_redeclared folded).mpr (mt List.map_eq_nil_iff.mpr declared)
  obtain ⟨property, rfl⟩ := Option.isSome_iff_exists.mp some
  exact ⟨property, rfl, mostSpecific_of_redeclared summit folded⟩

/-- Where declarations can be applied, they are settled. -/
theorem settled_of_redeclared {declarations : List (TypeKey × PropertyDeclaration)}
    {known : Option MetaProperty}
    (folded : declarations.foldlM (configuration.redeclare type) none = .ok known) :
    configuration.types.Settled (declarations.map (·.2.declared.raw)) := by
  intro before after split nonempty
  obtain ⟨earlier, later, rfl, rfl, rfl⟩ := List.map_eq_append_iff.mp split
  rw [List.foldlM_append, bind_eq_ok] at folded
  obtain ⟨between, folded, -⟩ := folded
  obtain ⟨property, -, specific⟩ := exists_of_redeclared summit folded nonempty
  exact ⟨property.declared.raw, specific⟩

/-- What is known of a property after some steps has the most specific type so far. -/
theorem mostSpecific_of_steps {performed : List BuildStep} {bean : MetaBean} {name : String}
    {property : MetaProperty}
    (folded : performed.foldlM configuration.perform (.blank type) = .ok bean)
    (known : bean.property? name = some property) :
    configuration.types.MostSpecific (BuildStep.declaredTypes name performed)
      property.declared.raw :=
  mostSpecific_of_redeclared summit (known ▸ property?_of_steps folded name)

/-- A step at which the types clash reports the conflict, if it declares a registered type. -/
theorem perform_of_clash {before : List BuildStep} {bean : MetaBean} {level current : TypeKey}
    {declaration : PropertyDeclaration}
    (folded : before.foldlM configuration.perform (.blank type) = .ok bean)
    (clash : configuration.Clash type before level declaration current) :
    configuration.perform bean (.property level declaration) = (do
      requireRef configuration.types declaration.declared
      .error (.conflictingMetadata type declaration.name current declaration.declared.raw)) := by
  obtain ⟨property, known, kept⟩ := exists_of_redeclared summit
    (property?_of_steps folded declaration.name) (List.ne_nil_of_mem clash.current.mem)
  have same : property.declared.raw = current := kept.unique summit clash.current
  have conflict : mergeDeclared configuration.types type declaration.name property.declared
      declaration.declared = .error (.conflictingMetadata type declaration.name current
        declaration.declared.raw) :=
    (mergeDeclared_eq_error summit kept).mpr ⟨clash.none, by rw [same]⟩
  simp only [perform, applyProperty, applyTo, known, Option.getD_some, type_of_steps folded,
    conflict]
  rfl

/-- **At a clash the conflict is reported**, unless something is reported before. -/
theorem build_of_clash {before : List BuildStep} {level current : TypeKey}
    {declaration : PropertyDeclaration}
    (clash : configuration.Clash type before level declaration current) :
    configuration.build type = (do
      let _ ← configuration.types.require type
      let _ ← before.foldlM configuration.perform (.blank type)
      requireRef configuration.types declaration.declared
      .error (.conflictingMetadata type declaration.name current declaration.declared.raw)) := by
  obtain ⟨after, split⟩ := clash.next
  rw [build_eq, split, List.foldlM_append]
  simp only [List.foldlM_cons, bind_assoc]
  cases configuration.types.require type with
  | error error => rfl
  | ok info =>
    cases folded : before.foldlM configuration.perform (.blank type) with
    | error error => rfl
    | ok bean =>
      change (configuration.perform bean (.property level declaration) >>= _) = _
      rw [perform_of_clash summit folded clash]
      cases requireRef configuration.types declaration.declared <;> rfl

/-- **A conflict is reported at a clash**, unless a validator reports it. -/
theorem clash_of_build {owner first second : TypeKey} {name : String}
    (failed : configuration.build type
      = .error (.conflictingMetadata owner name first second)) :
    (owner = type ∧ ∃ before level declaration,
        configuration.Clash type before level declaration first
        ∧ declaration.name = name ∧ declaration.declared.raw = second
        ∧ requireRef configuration.types declaration.declared = .ok ()
        ∧ ∃ bean, before.foldlM configuration.perform (.blank type) = .ok bean)
      ∨ ∃ constraint, Composition.SetUpFails configuration.catalog constraint
        (.conflictingMetadata owner name first second) := by
  rcases build_eq_error failed with
    ⟨before, step, after, bean, split, folded, failed⟩ | ⟨_, other⟩ | ⟨_, _, other⟩
  · rcases perform_eq_error failed with
      (refused | ⟨_, circular⟩ | unset) | ⟨level, declaration, rfl, registered, unmerged⟩
    · cases refused
    · cases circular
    · exact .inr unset
    · rw [type_of_steps folded] at unmerged
      cases known : bean.property? declaration.name with
      | none =>
        have agrees : mergeDeclared configuration.types type declaration.name declaration.declared
            declaration.declared = .ok declaration.declared := if_pos rfl
        rw [known] at unmerged
        cases agrees.symm.trans unmerged
      | some property =>
        have kept := mostSpecific_of_steps summit folded known
        rw [known] at unmerged
        obtain ⟨none, same⟩ := (mergeDeclared_eq_error summit kept).mp unmerged
        cases same
        exact .inl ⟨rfl, before, level, declaration, ⟨⟨after, split⟩, kept, none⟩, rfl, rfl,
          registered, bean, folded⟩
  · cases other
  · cases other

/-- Built metadata has the most specific types. -/
theorem mostSpecific_of_build {metadata : MetaBean} {name : String} {property : MetaProperty}
    (built : configuration.build type = .ok metadata)
    (known : metadata.property? name = some property) :
    configuration.types.MostSpecific (configuration.declaredTypes type name)
      property.declared.raw :=
  mostSpecific_of_redeclared summit (known ▸ property?_of_build built name)

end Steps

end Configuration

/-- What the declared types of the properties of a type come to. -/
structure Configuration.Narrows (configuration : Configuration) (type : TypeKey) : Prop where
  /-- Where metadata is built, a property that is declared has the most specific one of all its
  declared types, and so it was at each of its declarations. -/
  effective : ∀ metadata, configuration.build type = .ok metadata → ∀ name,
    configuration.declaredTypes type name ≠ [] → ∃ property,
      metadata.property? name = some property
        ∧ configuration.types.MostSpecific (configuration.declaredTypes type name)
          property.declared.raw
  settled : ∀ metadata, configuration.build type = .ok metadata → ∀ name,
    configuration.types.Settled (configuration.declaredTypes type name)
  /-- Where it was not so, there is a declaration at which the types clash. -/
  clashes : ∀ name, ¬ configuration.types.Settled (configuration.declaredTypes type name)
    ↔ ∃ before level declaration current,
      configuration.Clash type before level declaration current ∧ declaration.name = name
  /-- The conflict is reported there, unless something else is reported before. -/
  reported : ∀ before level declaration current,
    configuration.Clash type before level declaration current → configuration.build type = (do
      let _ ← configuration.types.require type
      let _ ← before.foldlM configuration.perform (.blank type)
      requireRef configuration.types declaration.declared
      .error (.conflictingMetadata type declaration.name current declaration.declared.raw))
  /-- And it is reported only there, unless the set-up of a validator reports it. -/
  conflict : ∀ owner name first second,
    configuration.build type = .error (.conflictingMetadata owner name first second) →
      (owner = type ∧ ∃ before level declaration,
          configuration.Clash type before level declaration first
          ∧ declaration.name = name ∧ declaration.declared.raw = second
          ∧ requireRef configuration.types declaration.declared = .ok ()
          ∧ ∃ bean, before.foldlM configuration.perform (.blank type) = .ok bean)
        ∨ ∃ constraint, Composition.SetUpFails configuration.catalog constraint
          (.conflictingMetadata owner name first second)
  /-- The type that a property has does not depend on the order of the declarations: it is the same
  wherever the same types are declared. -/
  orderless : ∀ (other : Configuration), other.types = configuration.types →
    ∀ otherType name metadata otherMetadata property otherProperty,
      configuration.build type = .ok metadata → other.build otherType = .ok otherMetadata →
      metadata.property? name = some property →
      otherMetadata.property? name = some otherProperty →
      (∀ key, key ∈ configuration.declaredTypes type name
        ↔ key ∈ other.declaredTypes otherType name) →
      property.declared.raw = otherProperty.declared.raw
  /-- In no order are types settled of which none is the most specific one; in any order they are
  where any two can be compared, or where the most specific one comes first. -/
  without : ∀ name, configuration.declaredTypes type name ≠ [] →
    (∀ key, ¬ configuration.types.MostSpecific (configuration.declaredTypes type name) key) →
    ¬ configuration.types.Settled (configuration.declaredTypes type name)
  comparable : ∀ name, (∀ upper ∈ configuration.declaredTypes type name,
      ∀ lower ∈ configuration.declaredTypes type name,
        configuration.types.isAssignable upper lower
          ∨ configuration.types.isAssignable lower upper) →
    configuration.types.Settled (configuration.declaredTypes type name)
  ahead : ∀ name key rest, configuration.declaredTypes type name = key :: rest →
    configuration.types.MostSpecific (key :: rest) key →
    configuration.types.Settled (configuration.declaredTypes type name)

/-- **Which type a property has, and when a conflict is reported**, whatever types have been
registered and whatever is declared. -/
theorem Configuration.build_narrows (calls : List Registration) (catalog : Catalog)
    (annotations mappings : List DeclarationRegistry) (type : TypeKey) :
    Narrows ⟨.registered calls, catalog, annotations, mappings⟩ type := by
  have summit := TypeSystem.parents_object_registered calls
  constructor
  case effective =>
    exact fun metadata built name => exists_of_redeclared summit (property?_of_build built name)
  case settled =>
    exact fun metadata built name => settled_of_redeclared summit (property?_of_build built name)
  case clashes => exact fun name => not_settled_iff
  case reported => exact fun before level declaration current => build_of_clash summit
  case conflict => exact fun owner name first second => clash_of_build summit
  case orderless =>
    rintro other same otherType name metadata otherMetadata property otherProperty built otherBuilt
      known otherKnown agree
    have specific := mostSpecific_of_build summit built known
    have otherSpecific := mostSpecific_of_build (same ▸ summit) otherBuilt otherKnown
    rw [same] at otherSpecific
    refine specific.unique summit ⟨(agree _).mpr otherSpecific.mem, fun key inside => ?_⟩
    exact otherSpecific.below key ((agree key).mp inside)
  case without =>
    intro name declared none settled
    obtain ⟨key, specific⟩ := settled _ [] (List.append_nil _).symm declared
    exact none key specific
  case comparable => exact fun name => TypeSystem.settled_of_comparable summit
  case ahead =>
    intro name key rest split specific
    rw [split]
    exact specific.settled

/-! ### A type that comes too late -/

namespace Crossed

def readable : TypeKey := ⟨"Readable"⟩
def writable : TypeKey := ⟨"Writable"⟩
def file : TypeKey := ⟨"File"⟩
def source : TypeKey := ⟨"Source"⟩
def sink : TypeKey := ⟨"Sink"⟩
def pipe : TypeKey := ⟨"Pipe"⟩

/-- A file can be read and written; a pipe is a source and a sink. -/
def types : TypeSystem :=
  .registered [.all [.ofInterface readable [], .ofInterface writable [],
    .ofClass file [readable, writable], .ofInterface source [], .ofInterface sink [],
    .ofClass pipe [source, sink]]]

/-- A declaration of the property `medium`. -/
def declaration (type declared : TypeKey) : BeanDeclaration where
  type := type
  id := none
  annotations := []
  properties := [⟨"medium", .field, .named declared, [], false⟩]
  groupSequence := none
  ignoreAnnotations := false

/-- The medium of a pipe is declared by the source, by the sink and by the pipe itself. -/
def configuration (ofSource ofSink own : TypeKey) : Configuration where
  types := types
  catalog := .empty
  annotations := [⟨[declaration source ofSource, declaration sink ofSink, declaration pipe own]⟩]
  mappings := []

/-- The declared type of the medium of a pipe. -/
def medium? (configuration : Configuration) : Option TypeKey :=
  (configuration.build pipe).toOption.bind fun metadata =>
    (metadata.property? "medium").map (·.declared.raw)

end Crossed

/-- **The order of declarations can make a conflict.**  The medium of a pipe is declared to be
readable, to be writable, and to be a file, which is both.  Where it is declared to be a file at
first, it is one; where this is declared at last, a conflict is reported. -/
theorem build_crossed :
    let late := Crossed.configuration Crossed.readable Crossed.writable Crossed.file
    let early := Crossed.configuration Crossed.file Crossed.readable Crossed.writable
    (early.declaredTypes Crossed.pipe "medium").Perm (late.declaredTypes Crossed.pipe "medium")
      ∧ Crossed.types.MostSpecific (late.declaredTypes Crossed.pipe "medium") Crossed.file
      ∧ late.build Crossed.pipe
        = .error (.conflictingMetadata Crossed.pipe "medium" Crossed.readable Crossed.writable)
      ∧ ∃ metadata property, early.build Crossed.pipe = .ok metadata
        ∧ metadata.property? "medium" = some property ∧ property.declared.raw = Crossed.file := by
  intro late early
  have lateTypes : late.declaredTypes Crossed.pipe "medium"
      = [Crossed.readable, Crossed.writable, Crossed.file] := by decide +kernel
  have earlyTypes : early.declaredTypes Crossed.pipe "medium"
      = [Crossed.file, Crossed.readable, Crossed.writable] := by decide +kernel
  refine ⟨?_, ?_, ?_, ?_⟩
  · rw [lateTypes, earlyTypes]
    decide
  · rw [lateTypes]
    exact ⟨by decide, by decide +kernel⟩
  · rfl
  · have known : Crossed.medium? early = some Crossed.file := by decide +kernel
    obtain ⟨metadata, built, known⟩ := Option.bind_eq_some_iff.mp known
    obtain ⟨property, found, same⟩ := Option.map_eq_some_iff.mp known
    exact ⟨metadata, property, eq_ok_of_toOption built, found, same⟩

end GraphValidation
