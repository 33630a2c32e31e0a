/-
**A redefined default group keeps its constraints.**

The sequence that redefines the default group of a class names the class itself, which stands in for
the default group.  All that the metadata of the class is made of is declared on the class or above
it, so a constraint of the default group belongs to the stand-in by its owner.  The default group
has no parents: what belongs to it without naming it names `Object`, and belongs to every group.

* `isMember_default` — what belongs to the default group.
* `Configuration.names_of_groupSequence` — the sequence of a class names the class.
* `Configuration.inherits_of_owner` — constraints are declared on the class or above it.
* `Configuration.isMember_standIn` — **no constraint of the default group is lost by a sequence that
  redefines it**.
-/
import GraphValidation.Proofs.Inheritance
import GraphValidation.Proofs.Registration

namespace GraphValidation

/-- All constraints that metadata knows, those of the type itself and those of its properties. -/
def MetaBean.allConstraints (metadata : MetaBean) : List ConstraintNode :=
  metadata.constraints ++ metadata.properties.flatMap (·.constraints)

/-! ### The default group -/

/-- What belongs to the default group names it, or `Object`. -/
theorem isMember_default {types : TypeSystem} (top : types.parents .defaultGroup = [])
    {declared : List TypeKey} {owner : TypeKey}
    (member : isMember types declared owner .defaultGroup) :
    .defaultGroup ∈ declared ∨ .object ∈ declared := by
  simp only [isMember, bne_self_eq_false, Bool.false_and, Bool.or_false, List.any_eq_true,
    Bool.or_eq_true, Bool.and_eq_true, beq_iff_eq] at member
  obtain ⟨group, named, rfl | ⟨-, above⟩⟩ := member
  · exact .inl named
  · rcases TypeSystem.isAssignable_iff.mp above with rfl | rfl | inherits
    · exact .inl named
    · exact .inr named
    · exact absurd inherits (TypeSystem.not_inherits_of_parents top)

/-- What belongs to the default group belongs to every other group that its owner is above. -/
theorem isMember_of_default {types : TypeSystem} (top : types.parents .defaultGroup = [])
    {declared : List TypeKey} {owner group : TypeKey} (named : group ≠ .defaultGroup)
    (above : types.isAssignable owner group)
    (member : isMember types declared owner .defaultGroup) :
    isMember types declared owner group := by
  simp only [isMember, Bool.or_eq_true, Bool.and_eq_true, bne_iff_ne, List.any_eq_true,
    List.contains_iff_mem]
  rcases isMember_default top member with default | object
  · exact .inr ⟨⟨named, default⟩, above⟩
  · have all : types.isAssignable .object group := TypeSystem.isAssignable_iff.mpr (.inr (.inl rfl))
    exact .inl ⟨.object, object, .inr ⟨by decide, all⟩⟩

/-- A sequence that may redefine a default group names its host, and not the default group. -/
theorem names_of_checkDefaultSequence {host : TypeKey} {sequence checked : List TypeKey}
    (accepted : checkDefaultSequence host sequence = .ok checked) :
    host ∈ checked ∧ .defaultGroup ∉ checked := by
  cases checkDefaultSequence_eq_ok accepted
  unfold checkDefaultSequence at accepted
  split at accepted
  · cases accepted
  · split at accepted
    · cases accepted
    · next noDefault =>
      split at accepted
      · cases accepted
      · next host => exact ⟨by simpa using host, by simpa using noDefault⟩

namespace Configuration

variable {configuration : Configuration} {type : TypeKey} {metadata : MetaBean}

/-- The sequence of a class names the class, and not the default group. -/
theorem names_of_groupSequence {sequence : List TypeKey}
    (built : configuration.build type = .ok metadata)
    (redefined : metadata.groupSequence = some sequence) :
    type ∈ sequence ∧ .defaultGroup ∉ sequence := by
  simp only [build, bind_eq_ok] at built
  obtain ⟨info, known, bean, -, own, checked, same⟩ := built
  cases same
  cases redefined
  rw [← TypeSystem.key_of_require known]
  unfold defaultSequence at checked
  split at checked
  · cases checked
  · split at checked
    · cases checked
    · simp only [bind_eq_ok] at checked
      obtain ⟨-, -, sequence, accepted, same⟩ := checked
      cases same
      exact names_of_checkDefaultSequence accepted

/-! ### Owners -/

/-- The declarations in force are made for the type and for types above it. -/
theorem inherits_of_inForce {declared : TypeKey × BeanDeclaration}
    (member : declared ∈ configuration.inForce type) :
    declared.1 = type ∨ configuration.types.Inherits type declared.1 := by
  obtain ⟨level, isLevel, listed⟩ := List.mem_flatMap.mp member
  obtain ⟨bean, -, rfl⟩ := List.mem_map.mp listed
  exact inherits_of_mem_levels isLevel

theorem inherits_of_classConstraints {declared : TypeKey × ConstraintDeclaration}
    (member : declared ∈ configuration.classConstraints type) :
    declared.1 = type ∨ configuration.types.Inherits type declared.1 := by
  obtain ⟨⟨level, bean⟩, inForce, listed⟩ := List.mem_flatMap.mp member
  obtain ⟨constraint, -, rfl⟩ := List.mem_map.mp listed
  exact inherits_of_inForce inForce

theorem inherits_of_propertyConstraints {name : String}
    {declared : (TypeKey × PropertyDeclaration) × ConstraintDeclaration}
    (member : declared ∈ configuration.propertyConstraints type name) :
    declared.1.1 = type ∨ configuration.types.Inherits type declared.1.1 := by
  obtain ⟨ofProperty, isDeclared, listed⟩ := List.mem_flatMap.mp member
  obtain ⟨constraint, -, rfl⟩ := List.mem_map.mp listed
  obtain ⟨⟨level, bean⟩, inForce, found⟩ := List.mem_flatMap.mp isDeclared
  obtain ⟨property, -, rfl⟩ := List.mem_map.mp found
  exact inherits_of_inForce inForce

/-- The constraints of metadata, with all that they are composed of, are owned by the type and by
types above it. -/
theorem inherits_of_owner (built : configuration.build type = .ok metadata) {node : ConstraintNode}
    (known : node ∈ metadata.allConstraints) {part : ConstraintNode}
    (within : ConstraintNode.Within part node) :
    part.content.owner = type ∨ configuration.types.Inherits type part.content.owner := by
  rcases List.mem_append.mp known with ofType | ofProperty
  · obtain ⟨declared, declares, isOf⟩ :=
      exists_of_mem_forall₂ (classConstraints_of_build built).flip ofType
    rw [isOf.owned part within]
    exact inherits_of_classConstraints declares
  · obtain ⟨property, isProperty, inside⟩ := List.mem_flatMap.mp ofProperty
    have nodes := propertyConstraints_of_build built property.name
    rw [(build_wellFormed built).property?_of_mem isProperty, Option.elim_some] at nodes
    obtain ⟨declared, declares, isOf⟩ := exists_of_mem_forall₂ nodes.flip inside
    rw [isOf.owned part within]
    exact inherits_of_propertyConstraints declares

/-- **No constraint of the default group is lost by a sequence that redefines it.**  Whatever types
have been registered and whatever is declared, a constraint of the metadata of a class, at any
depth, that belongs to the default group belongs to a group of the sequence. -/
theorem isMember_standIn (calls : List Registration)
    (registers : configuration.types = .registered calls) {sequence : List TypeKey}
    (built : configuration.build type = .ok metadata)
    (redefined : metadata.groupSequence = some sequence) :
    ∀ node ∈ metadata.allConstraints, ∀ part, ConstraintNode.Within part node →
      isMember configuration.types part.content.groups part.content.owner .defaultGroup →
        ∃ group ∈ sequence,
          isMember configuration.types part.content.groups part.content.owner group := by
  intro node known part within member
  obtain ⟨standIn, noDefault⟩ := names_of_groupSequence built redefined
  have top : configuration.types.parents .defaultGroup = [] := by
    rw [registers]
    exact TypeSystem.parents_default_registered calls
  refine ⟨type, standIn, isMember_of_default top (fun same => noDefault (same ▸ standIn)) ?_ member⟩
  rw [TypeSystem.isAssignable_iff]
  exact (inherits_of_owner built known within).imp id .inr

end Configuration

/-! ### Books with a sequence -/

namespace Diamond

def basic : TypeKey := ⟨"Basic"⟩

/-- The types of the diamond and a group; the group is refused the second time. -/
def calls : List Registration :=
  [.all [.ofInterface named [], .ofInterface labelled [named], .ofInterface tagged [named],
    .ofClass item [labelled], ⟨book, .classType, some item, [tagged]⟩],
   .one (.ofInterface basic []), .one (.ofInterface basic [])]

/-- Books are validated for the basic group first. -/
def sequenced : Configuration :=
  { configuration with
    types := .registered calls
    mappings := [⟨[{ declaration book 4 true with groupSequence := some [basic, book] }]⟩] }

end Diamond

/-- The constraints that books have from `Named` and from items apply to the books of a sequence. -/
theorem isMember_standIn_book :
    ∃ metadata, Diamond.sequenced.build Diamond.book = .ok metadata
      ∧ metadata.groupSequence = some [Diamond.basic, Diamond.book]
      ∧ metadata.constraints.map (·.content.owner) = [Diamond.named, Diamond.item, Diamond.book]
      ∧ ∀ node ∈ metadata.allConstraints, ∀ part, ConstraintNode.Within part node →
        isMember Diamond.sequenced.types part.content.groups part.content.owner .defaultGroup →
          ∃ group ∈ [Diamond.basic, Diamond.book],
            isMember Diamond.sequenced.types part.content.groups part.content.owner group := by
  have known : (Diamond.sequenced.build Diamond.book).toOption.map
      (fun metadata => (metadata.groupSequence, metadata.constraints.map (·.content.owner)))
      = some (some [Diamond.basic, Diamond.book], [Diamond.named, Diamond.item, Diamond.book]) := by
    decide +kernel
  obtain ⟨metadata, built, same⟩ := Option.map_eq_some_iff.mp known
  obtain ⟨redefined, owners⟩ := Prod.mk.inj same
  have ok := eq_ok_of_toOption built
  exact ⟨metadata, ok, redefined, owners,
    Configuration.isMember_standIn Diamond.calls rfl ok redefined⟩

end GraphValidation
