/-
**Whose metadata a cascade goes on with.**

A property may be declared many times, by different levels and sources and with different types.
Its declared type is narrowed from declaration to declaration; its cascade target is that of the
last declaration that cascades, for the type which that one declares.

* `CascadeTarget.DeterminedBy` — the target that a declared type determines.
* `Configuration.cascade_of_build` — **the target of a property is determined by the type of the
  last declaration that cascades**; it is determined by the declared type of the property where the
  cascading declarations declare that.
* `cascade_narrowed` — a later declaration can narrow the declared type and leave the target behind.
-/
import Mathlib.Data.List.Induction
import GraphValidation.Proofs.Inheritance

namespace GraphValidation

/-- What a cascade over a declared type reaches is declared to be of a class with instances of its
own, other than `Object`. -/
def TypeRef.Reaches (types : TypeSystem) (declared : TypeRef) (type : TypeKey) : Prop :=
  ∃ element info, declared.cascadeElement? types = some element ∧ element.raw = type
    ∧ types.get? type = some info ∧ info.isAbstract = false ∧ type ≠ .object

/-- The target is the one that a declared type determines: fixed where that reaches a class, and so
open where it does not. -/
def CascadeTarget.DeterminedBy (types : TypeSystem) (declared : TypeRef) (target : CascadeTarget) :
    Prop :=
  ∀ type, target = .static type ↔ declared.Reaches types type

/-- The last declaration that cascades. -/
def LastCascading (declarations : List (TypeKey × PropertyDeclaration))
    (last : TypeKey × PropertyDeclaration) : Prop :=
  ∃ before after, declarations = before ++ last :: after ∧ last.2.cascade = true
    ∧ ∀ later ∈ after, later.2.cascade = false

namespace Configuration

variable {configuration : Configuration} {type level : TypeKey}

/-- The target of a declared type is the one that the type determines. -/
theorem cascadeTarget_determined {types : TypeSystem} {declared : TypeRef} {target : CascadeTarget}
    (found : cascadeTarget types declared = .ok target) : target.DeterminedBy types declared := by
  intro type
  unfold cascadeTarget at found
  cases reached : declared.cascadeElement? types with
  | none =>
    rw [reached] at found
    cases found
    refine ⟨nofun, ?_⟩
    rintro ⟨_, _, reaches, _⟩
    rw [reached] at reaches
    cases reaches
  | some element =>
    simp only [reached, bind_eq_ok] at found
    obtain ⟨info, required, found⟩ := found
    have described : types.get? element.raw = some info := TypeSystem.require_eq_ok.mp required
    have reaches : declared.Reaches types type
        ↔ element.raw = type ∧ info.isAbstract = false ∧ type ≠ .object := by
      constructor
      · rintro ⟨_, _, reaches, rfl, described', concrete, proper⟩
        rw [reached] at reaches
        cases reaches
        rw [described] at described'
        cases described'
        exact ⟨rfl, concrete, proper⟩
      · rintro ⟨rfl, concrete, proper⟩
        exact ⟨element, info, reached, rfl, described, concrete, proper⟩
    rw [reaches]
    split at found
    · rename_i isOpen
      cases found
      refine ⟨nofun, ?_⟩
      rintro ⟨rfl, concrete, proper⟩
      simp [concrete, proper] at isOpen
    · rename_i isFixed
      cases found
      simp only [Bool.or_eq_true, beq_iff_eq, not_or, Bool.not_eq_true] at isFixed
      rw [CascadeTarget.static.injEq]
      constructor
      · rintro rfl
        exact ⟨rfl, isFixed.2, isFixed.1⟩
      · exact And.left

/-- The declared type after one more declaration is the one before it or that of the declaration. -/
theorem mergeDeclared_eq {types : TypeSystem} {bean : TypeKey} {name : String}
    {current declared merged : TypeRef}
    (accepted : mergeDeclared types bean name current declared = .ok merged) :
    merged = current ∨ merged = declared := by
  unfold mergeDeclared at accepted
  split at accepted
  · cases accepted
    exact .inl rfl
  · split at accepted
    · cases accepted
      exact .inr rfl
    · split at accepted
      · cases accepted
        exact .inl rfl
      · cases accepted

/-- One more declaration sets the declared type to that before it or to its own, and the target if
it cascades. -/
theorem redeclare_eq {known : Option MetaProperty} {declared : TypeKey × PropertyDeclaration}
    {property : MetaProperty}
    (redeclared : configuration.redeclare type known declared = .ok (some property)) :
    (property.declared = declared.2.declared
        ∨ ∃ before, known = some before ∧ property.declared = before.declared)
      ∧ if declared.2.cascade then
          ∃ target, cascadeTarget configuration.types declared.2.declared = .ok target
            ∧ property.cascade = some target
        else property.cascade = known.bind (·.cascade) := by
  obtain ⟨_, same, redeclares⟩ := redeclare_eq_ok redeclared
  cases same
  have target := redeclares.target
  have accepted := redeclares.declared
  cases known with
  | none => exact ⟨.inl ((mergeDeclared_eq accepted).elim id id), target⟩
  | some before =>
    exact ⟨(mergeDeclared_eq accepted).elim (fun kept => .inr ⟨before, rfl, kept⟩) .inl, target⟩

/-- A declaration that cascades adds its access, unless it is there already. -/
theorem cascadeAccesses_of_redeclare {known later : Option MetaProperty}
    {declared : TypeKey × PropertyDeclaration}
    (redeclared : configuration.redeclare type known declared = .ok later) :
    later.elim [] (·.cascadeAccesses)
      = if declared.2.cascade then
          addOnce (known.elim [] (·.cascadeAccesses)) declared.2.accessTo
        else known.elim [] (·.cascadeAccesses) := by
  obtain ⟨property, rfl, redeclares⟩ := redeclare_eq_ok redeclared
  rw [Option.elim_some, redeclares.accesses]
  cases known <;> rfl

/-- The accesses of a property are those of its declarations that cascade, each once. -/
theorem cascadeAccesses_of_redeclared {declarations : List (TypeKey × PropertyDeclaration)}
    {known later : Option MetaProperty}
    (folded : declarations.foldlM (configuration.redeclare type) known = .ok later) :
    later.elim [] (·.cascadeAccesses)
      = ((declarations.filter (·.2.cascade)).map (·.2.accessTo)).foldl addOnce
          (known.elim [] (·.cascadeAccesses)) := by
  induction declarations generalizing known with
  | nil =>
    cases folded
    rfl
  | cons declared rest ih =>
    rw [List.foldlM_cons, bind_eq_ok] at folded
    obtain ⟨middle, redeclared, folded⟩ := folded
    rw [ih folded, cascadeAccesses_of_redeclare redeclared, List.filter_cons]
    split <;> rfl

/-- The ways to cascade over a property are those of its declarations that cascade. -/
theorem mem_cascadeAccesses_of_redeclared {declarations : List (TypeKey × PropertyDeclaration)}
    {known later : Option MetaProperty}
    (folded : declarations.foldlM (configuration.redeclare type) known = .ok later)
    {access : Access} :
    access ∈ later.elim [] (·.cascadeAccesses)
      ↔ access ∈ known.elim [] (·.cascadeAccesses)
        ∨ ∃ declared ∈ declarations, declared.2.cascade = true ∧ declared.2.accessTo = access := by
  rw [cascadeAccesses_of_redeclared folded, mem_foldl_addOnce]
  simp only [List.mem_map, List.mem_filter, and_assoc]

/-- What declarations make of a property: its declared type is that of one of them, and its target
that of the last one that cascades. -/
theorem cascade_of_redeclared {declarations : List (TypeKey × PropertyDeclaration)}
    {property : MetaProperty}
    (folded : declarations.foldlM (configuration.redeclare type) none = .ok (some property)) :
    (∃ declared ∈ declarations, declared.2.declared = property.declared)
      ∧ (property.cascade = none ↔ ∀ declared ∈ declarations, declared.2.cascade = false)
      ∧ ∀ target, property.cascade = some target → ∃ last, LastCascading declarations last
          ∧ cascadeTarget configuration.types last.2.declared = .ok target := by
  induction declarations using List.reverseRecOn generalizing property with
  | nil => cases folded
  | append_singleton declarations declared ih =>
    simp only [List.foldlM_append, List.foldlM_cons, List.foldlM_nil, bind_eq_ok] at folded
    obtain ⟨known, folded, _, redeclared, same⟩ := folded
    cases same
    obtain ⟨narrowed, target⟩ := redeclare_eq redeclared
    refine ⟨?_, ?_⟩
    · rcases narrowed with own | ⟨before, rfl, kept⟩
      · exact ⟨declared, by simp, own.symm⟩
      · obtain ⟨earlier, member, same⟩ := (ih folded).1
        exact ⟨earlier, List.mem_append_left _ member, same.trans kept.symm⟩
    · split at target
      · rename_i cascades
        obtain ⟨target, found, set⟩ := target
        rw [set]
        refine ⟨⟨nofun, fun plain => ?_⟩, ?_⟩
        · have contradicts := plain declared (by simp)
          rw [cascades] at contradicts
          cases contradicts
        · rintro other same
          cases same
          exact ⟨declared, ⟨declarations, [], rfl, cascades, nofun⟩, found⟩
      · rename_i plain
        simp only [Bool.not_eq_true] at plain
        cases known with
        | none =>
          have first : declarations = [] := by
            by_contra nonempty
            exact nomatch (isSome_of_redeclared folded).mpr nonempty
          subst first
          rw [target]
          exact ⟨by simp [plain], nofun⟩
        | some before =>
          obtain ⟨-, unset, last⟩ := ih folded
          rw [target]
          simp only [Option.bind_some]
          refine ⟨by simp [unset, plain, or_imp, forall_and], fun target set => ?_⟩
          obtain ⟨last, ⟨earlier, later, same, cascades, others⟩, found⟩ := last target set
          refine ⟨last, ⟨earlier, later ++ [declared], ?_, cascades, ?_⟩, found⟩
          · rw [same, List.append_assoc, List.cons_append]
          · intro other member
            rcases List.mem_append.mp member with member | isLast
            · exact others other member
            · rw [List.mem_singleton.mp isLast]
              exact plain

/-- **The cascade target of a property is determined by the type of the last declaration that
cascades.**  A property cascades if and only if one of its declarations does.  Where all cascading
declarations declare the type that the property has in the end, the target is the one that this type
determines. -/
theorem cascade_of_build {metadata : MetaBean} {property : MetaProperty} {name : String}
    (built : configuration.build type = .ok metadata)
    (found : metadata.property? name = some property) :
    (property.cascade = none
        ↔ ∀ declared ∈ configuration.declarationsOf type name, declared.2.cascade = false)
      ∧ ∀ target, property.cascade = some target →
          (∃ last, LastCascading (configuration.declarationsOf type name) last
            ∧ target.DeterminedBy configuration.types last.2.declared)
          ∧ ((∀ declared ∈ configuration.declarationsOf type name, declared.2.cascade →
              declared.2.declared = property.declared) →
            target.DeterminedBy configuration.types property.declared) := by
  have folded := property?_of_build built name
  rw [found] at folded
  obtain ⟨-, unset, last⟩ := cascade_of_redeclared folded
  refine ⟨unset, fun target set => ?_⟩
  obtain ⟨last, isLast, determines⟩ := last target set
  have determined := cascadeTarget_determined determines
  refine ⟨⟨last, isLast, determined⟩, fun agree => ?_⟩
  obtain ⟨before, after, same, cascades, -⟩ := isLast
  rw [← agree last (by simp [same]) cascades]
  exact determined

end Configuration

/-! ### A narrowed property -/

namespace Narrowed

def base : TypeKey := ⟨"Base"⟩
def sub : TypeKey := ⟨"Sub"⟩
def parent : TypeKey := ⟨"Parent"⟩
def child : TypeKey := ⟨"Child"⟩

def types : TypeSystem :=
  (TypeSystem.builtin.registerAll
    [.ofClass base [], ⟨sub, .classType, some base, []⟩,
     .ofClass parent [], ⟨child, .classType, some parent, []⟩]).1

/-- A declaration of the property `part`. -/
def declaration (type declared : TypeKey) (cascade : Bool) : BeanDeclaration where
  type := type
  id := none
  annotations := []
  properties := [⟨"part", .field, .named declared, [], cascade⟩]
  groupSequence := none
  ignoreAnnotations := false

/-- The child declares the part of the parent again, with a more specific type. -/
def configuration (childCascades : Bool) : Configuration where
  types := types
  catalog := .empty
  annotations := [⟨[declaration parent base true, declaration child sub childCascades]⟩]
  mappings := []

/-- What is known of the part of a child: its declared type and its target. -/
def part? (childCascades : Bool) : Option (TypeRef × Option CascadeTarget) :=
  ((configuration childCascades).build child).toOption.bind fun metadata =>
    (metadata.property? "part").map fun property => (property.declared, property.cascade)

theorem part?_cascading : part? true = some (.named sub, some (.static sub)) := by decide +kernel

theorem part?_silent : part? false = some (.named sub, some (.static base)) := by decide +kernel

theorem of_part? {childCascades : Bool} {declared : TypeRef} {cascade : Option CascadeTarget}
    (known : part? childCascades = some (declared, cascade)) :
    ∃ metadata property, (configuration childCascades).build child = .ok metadata
      ∧ metadata.property? "part" = some property
      ∧ property.declared = declared ∧ property.cascade = cascade := by
  obtain ⟨metadata, built, known⟩ := Option.bind_eq_some_iff.mp known
  obtain ⟨property, found, same⟩ := Option.map_eq_some_iff.mp known
  cases same
  exact ⟨metadata, property, eq_ok_of_toOption built, found, rfl, rfl⟩

end Narrowed

/-- Where the child cascades as well, the target follows the narrowed type. -/
theorem cascade_of_build_narrowed :
    ∃ metadata property, (Narrowed.configuration true).build Narrowed.child = .ok metadata
      ∧ metadata.property? "part" = some property
      ∧ property.declared = .named Narrowed.sub
      ∧ ∃ last, LastCascading
          ((Narrowed.configuration true).declarationsOf Narrowed.child "part") last
        ∧ (CascadeTarget.static Narrowed.sub).DeterminedBy Narrowed.types last.2.declared := by
  obtain ⟨metadata, property, built, found, narrowed, set⟩ :=
    Narrowed.of_part? Narrowed.part?_cascading
  exact ⟨metadata, property, built, found, narrowed,
    ((Configuration.cascade_of_build built found).2 _ set).1⟩

/-- **A declaration that narrows the declared type without cascading leaves the target behind**: the
part of a child is declared to be a `Sub`, and a cascade goes on with the metadata of `Base`. -/
theorem cascade_narrowed :
    ∃ metadata property, (Narrowed.configuration false).build Narrowed.child = .ok metadata
      ∧ metadata.property? "part" = some property
      ∧ property.declared = .named Narrowed.sub
      ∧ property.cascade = some (.static Narrowed.base)
      ∧ ¬ (CascadeTarget.static Narrowed.base).DeterminedBy Narrowed.types property.declared := by
  obtain ⟨metadata, property, built, found, narrowed, set⟩ :=
    Narrowed.of_part? Narrowed.part?_silent
  refine ⟨metadata, property, built, found, narrowed, set, fun determined => ?_⟩
  rw [narrowed] at determined
  obtain ⟨element, _, reached, isBase, _⟩ := (determined Narrowed.base).mp rfl
  have own : (TypeRef.named Narrowed.sub).cascadeElement? Narrowed.types
      = some (.named Narrowed.sub) := by decide +kernel
  rw [own] at reached
  cases reached
  exact absurd isBase (by decide)

end GraphValidation
