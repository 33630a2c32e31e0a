/-
**What interfaces carry is nothing to a default group.**

A request for a group goes by the sequence that its interface carries, and by those of the members.
The sequence that redefines the default group of a class is kept as it is declared: a group in it
stands for itself, whatever its interface carries, and nobody follows it into a circle.

* `Configuration.carrying` — a configuration whose interfaces carry other sequences.
* `Configuration.sequenceOf_carrying` — a request goes by them.
* `Configuration.build_carrying` — the metadata is the same.
* `perform_carrying` — **a validation for the default group does not depend on what interfaces
  carry**.
-/
import GraphValidation.Proofs.Histories
import GraphValidation.Proofs.Reordering
import GraphValidation.Proofs.Requests

namespace GraphValidation

/-! ### Other sequences for interfaces -/

section Carrying

variable (types : TypeSystem) (carried : TypeKey → Option (List TypeKey))

/-- What is said about a type, with another sequence if it is an interface. -/
def BeanDeclaration.carrying (bean : BeanDeclaration) : BeanDeclaration :=
  { bean with
    groupSequence := if types.isInterface bean.type then carried bean.type else bean.groupSequence }

def DeclarationRegistry.carrying (registry : DeclarationRegistry) : DeclarationRegistry :=
  ⟨registry.beans.map (·.carrying types carried)⟩

theorem DeclarationRegistry.get?_carrying (registry : DeclarationRegistry) (type : TypeKey) :
    (registry.carrying types carried).get? type
      = (registry.get? type).map (·.carrying types carried) :=
  List.find?_map

theorem DeclarationRegistry.typeOfId?_carrying (registry : DeclarationRegistry) (id : String) :
    (registry.carrying types carried).typeOfId? id = registry.typeOfId? id := by
  unfold typeOfId? carrying
  rw [List.find?_map, Option.map_map]
  rfl

end Carrying

namespace Configuration

variable {configuration : Configuration}

theorem type_of_mem {type : TypeKey} {declaration : BeanDeclaration}
    (member : declaration ∈ configuration.declarationsFor type) : declaration.type = type := by
  obtain ⟨source, -, found⟩ := exists_source_of_mem member
  simpa using List.find?_some found

variable (configuration) (carried : TypeKey → Option (List TypeKey))

/-- The configuration with other sequences for all interfaces that are declared. -/
def carrying : Configuration :=
  { configuration with
    annotations := configuration.annotations.map (·.carrying configuration.types carried)
    mappings := configuration.mappings.map (·.carrying configuration.types carried) }

theorem declarationsFor_carrying (type : TypeKey) :
    (configuration.carrying carried).declarationsFor type
      = (configuration.declarationsFor type).map (·.carrying configuration.types carried) := by
  have sources : ∀ registries : List DeclarationRegistry,
      (registries.map (·.carrying configuration.types carried)).filterMap (·.get? type)
        = (registries.filterMap (·.get? type)).map (·.carrying configuration.types carried) := by
    intro registries
    rw [List.filterMap_map, List.map_filterMap]
    exact congrArg (fun found => registries.filterMap found)
      (funext fun registry => registry.get?_carrying configuration.types carried type)
  have ignores : ∀ beans : List BeanDeclaration,
      (beans.map (·.carrying configuration.types carried)).any (·.ignoreAnnotations)
        = beans.any (·.ignoreAnnotations) := fun _ => List.any_map
  unfold declarationsFor
  simp only [carrying, sources, ignores]
  split
  · rfl
  · rw [List.map_append]

theorem typeOfId?_carrying (id : String) :
    (configuration.carrying carried).typeOfId? id = configuration.typeOfId? id := by
  unfold typeOfId? carrying
  rw [← List.map_append, List.findSome?_map]
  exact congrArg (fun found => List.findSome? found _)
    (funext fun registry => registry.typeOfId?_carrying configuration.types carried id)

/-- A request for an interface that is declared goes by what it carries. -/
theorem sequenceOf_carrying {group : TypeKey}
    (isInterface : configuration.types.isInterface group = true)
    (declared : configuration.declarationsFor group ≠ []) :
    GroupRequest.sequenceOf configuration.types (configuration.carrying carried).groupSequence group
      = .ok (carried group) := by
  have same : ∀ declaration ∈ (configuration.declarationsFor group).reverse,
      (declaration.carrying configuration.types carried).groupSequence = carried group := by
    intro declaration member
    have typed := type_of_mem (List.mem_reverse.mp member)
    simp only [BeanDeclaration.carrying, typed, isInterface, if_true]
  unfold GroupRequest.sequenceOf groupSequence lastSome?
  rw [if_pos isInterface, declarationsFor_carrying, ← List.map_reverse, List.findSome?_map]
  refine congrArg Except.ok ?_
  cases reversed : (configuration.declarationsFor group).reverse with
  | nil => exact absurd (List.reverse_eq_nil_iff.mp reversed) declared
  | cons last before =>
    rw [reversed] at same
    cases found : carried group with
    | none =>
      refine List.findSome?_eq_none_iff.mpr fun declaration member => ?_
      exact (same declaration member).trans found
    | some sequence =>
      have own := (same last List.mem_cons_self).trans found
      rw [List.findSome?_cons, Function.comp_apply, own]

/-! ### The metadata -/

theorem applyLevel_carrying (bean : MetaBean) (level : TypeKey) :
    (configuration.carrying carried).applyLevel bean level
      = configuration.applyLevel bean level := by
  unfold applyLevel
  rw [declarationsFor_carrying, List.foldlM_map]
  rfl

/-- What is declared of a class stays the same. -/
theorem declarationsFor_carrying_of_class {type : TypeKey}
    (isClass : configuration.types.isInterface type = false) :
    (configuration.carrying carried).declarationsFor type = configuration.declarationsFor type := by
  rw [declarationsFor_carrying]
  refine (List.map_congr_left fun declaration member => ?_).trans (List.map_id' _)
  have typed := type_of_mem member
  rw [← typed] at isClass
  simp only [BeanDeclaration.carrying, isClass, Bool.false_eq_true, if_false]

/-- **The metadata is the same, whatever interfaces carry**, so a circle in that is no error. -/
theorem build_carrying (type : TypeKey) :
    (configuration.carrying carried).build type = configuration.build type := by
  have levels : (configuration.carrying carried).applyLevel = configuration.applyLevel :=
    funext fun bean => funext (configuration.applyLevel_carrying carried bean)
  have ids : lastSome? (·.id) ((configuration.carrying carried).declarationsFor type)
      = lastSome? (·.id) (configuration.declarationsFor type) := by
    unfold lastSome?
    rw [declarationsFor_carrying, ← List.map_reverse, List.findSome?_map]
    rfl
  have sequences : ∀ info, configuration.types.require type = .ok info →
      (configuration.carrying carried).defaultSequence info
          ((configuration.carrying carried).declarationsFor type)
        = configuration.defaultSequence info (configuration.declarationsFor type) := by
    intro info known
    unfold defaultSequence
    cases isInterface : info.isInterface with
    | true => rfl
    | false =>
      rw [declarationsFor_carrying_of_class configuration carried
        ((TypeSystem.isInterface_of_require known).trans isInterface)]
      rfl
  have types : (configuration.carrying carried).types = configuration.types := rfl
  have above : (configuration.carrying carried).levels type = configuration.levels type := rfl
  unfold build
  simp only [levels, ids, types, above]
  cases known : configuration.types.require type with
  | error error => rfl
  | ok info =>
    change (pure info >>= _) = (pure info >>= _)
    rw [pure_bind, pure_bind, sequences info known]

end Configuration

/-! ### Requests -/

namespace GroupRequest

variable {types : TypeSystem} {source : SequenceSource}

theorem resolveFrom_of_default {requested : List TypeKey}
    (asks : ∀ group ∈ requested, group = .defaultGroup) :
    resolveFrom types source .defaultOnly requested = .ok .defaultOnly := by
  induction requested with
  | nil => rfl
  | cons group rest ih =>
    rw [resolveFrom, if_pos (asks group List.mem_cons_self), asks group List.mem_cons_self]
    exact ih fun other member => asks other (List.mem_cons_of_mem _ member)

/-- A request for nothing but the default group asks for nothing else. -/
theorem resolve_of_default {requested : List TypeKey}
    (asks : ∀ group ∈ requested, group = .defaultGroup) :
    resolve types source requested = .ok .defaultOnly := by
  cases requested with
  | nil => rfl
  | cons group rest =>
    rw [resolve, List.isEmpty_cons, if_neg Bool.false_ne_true, resolveFrom,
      if_pos (asks group List.mem_cons_self), asks group List.mem_cons_self]
    exact resolveFrom_of_default fun other member => asks other (List.mem_cons_of_mem _ member)

/-- A request for a group whose sequence begins with the group itself fails. -/
theorem expand_of_circle {group : TypeKey} {rest : List TypeKey}
    (carries : sequenceOf types source group = .ok (some (group :: rest))) (fuel : Nat) :
    expand types source (fuel + 1) [] group = .error (.cyclicGroupSequence group) := by
  obtain ⟨info, known⟩ := require_of_sequenceOf carries
  have circular : expand types source fuel [group] group = .error (.cyclicGroupSequence group) := by
    cases fuel <;> simp [expand]
  have unfolded : expand types source (fuel + 1) [] group
      = expandMembers types (expand types source fuel [group]) (group :: rest) [] := by
    rw [expand, carries]
    rfl
  rw [unfolded, expandMembers, known, circular]
  rfl

end GroupRequest

/-! ### Validations for the default group -/

/-- The groups that a call asks for. -/
def Validation.requested : Validation → List TypeKey
  | graph _ requested => requested
  | graphAs _ _ requested => requested
  | graphById _ _ requested => requested
  | property _ _ requested => requested
  | value _ _ _ requested => requested

namespace Validator

variable (validator : Validator) (carried : TypeKey → Option (List TypeKey))

/-- A new validator whose interfaces carry other sequences. -/
def carrying : Validator :=
  .ofConfiguration (validator.cache.configuration.carrying carried) validator.resolver
    validator.interpolator validator.mapsLikeBeans

variable {validator}

theorem groups?_of_default {requested : List TypeKey}
    (asks : ∀ group ∈ requested, group = .defaultGroup) :
    validator.groups? requested = .ok .defaultOnly := by
  rw [groups?, GroupRequest.resolve_of_default asks]

theorem metadata?_carrying (type : TypeKey) :
    (validator.carrying carried).metadata? type = validator.metadata? type :=
  congrArg (Except.mapError ValidationError.config)
    (validator.cache.configuration.build_carrying carried type)

theorem metadataOfId?_carrying (id : String) :
    (validator.carrying carried).metadataOfId? id = validator.metadataOfId? id := by
  have named : (validator.carrying carried).cache.configuration.typeOfId? id
      = validator.cache.configuration.typeOfId? id :=
    validator.cache.configuration.typeOfId?_carrying carried id
  unfold metadataOfId?
  simp only [named, metadata?_carrying]

theorem rootMetadata?_carrying (heap : Heap) (root : Value) :
    (validator.carrying carried).rootMetadata? heap root = validator.rootMetadata? heap root := by
  have built : (validator.carrying carried).cache.configuration.build root.runtimeType
      = validator.cache.configuration.build root.runtimeType :=
    validator.cache.configuration.build_carrying carried root.runtimeType
  unfold rootMetadata?
  rw [built]
  rfl

/-- What a call for the default group is left to do is the same. -/
theorem task?_carrying (heap : Heap) {validation : Validation}
    (asks : ∀ group ∈ validation.requested, group = .defaultGroup) :
    (validator.carrying carried).task? heap validation = validator.task? heap validation := by
  have groups : (validator.carrying carried).groups? validation.requested
      = validator.groups? validation.requested :=
    (groups?_of_default asks).trans (groups?_of_default asks).symm
  cases validation <;> rw [Validation.requested] at groups <;>
    simp only [task?, groups, metadata?_carrying, metadataOfId?_carrying, rootMetadata?_carrying]

theorem buildsAlike_carrying : (validator.carrying carried).BuildsAlike validator where
  environment _ := rfl
  builds := validator.cache.configuration.build_carrying carried

end Validator

/-- **A validation for the default group does not depend on what interfaces carry**, while a request
for such an interface does.  A group in the sequence of a class stands for itself: the sequence is
kept as it is declared, and the metadata is built from it, also where what a group of it carries
comes back to the group. -/
theorem perform_carrying (validator : Validator) (carried : TypeKey → Option (List TypeKey)) :
    let configuration := validator.cache.configuration
    let other := validator.carrying carried
    (∀ group, configuration.types.isInterface group = true →
        configuration.declarationsFor group ≠ [] →
          GroupRequest.sequenceOf other.types other.cache.configuration.groupSequence group
            = .ok (carried group))
      ∧ (∀ type, other.cache.configuration.build type = configuration.build type)
      ∧ (∀ type metadata, configuration.build type = .ok metadata →
        configuration.types.isInterface type = false →
          metadata.groupSequence
            = Configuration.lastSome? (·.groupSequence) (configuration.declarationsFor type))
      ∧ ∀ heap validation, (∀ group ∈ validation.requested, group = .defaultGroup) →
        (other.perform heap validation).account = (validator.perform heap validation).account := by
  refine ⟨fun group isInterface declared => ?_, fun type => ?_,
    fun type metadata built isClass => ?_, fun heap validation asks => ?_⟩
  · exact validator.cache.configuration.sequenceOf_carrying carried isInterface declared
  · exact validator.cache.configuration.build_carrying carried type
  · rw [Configuration.groupSequence_eq_of_build built, isClass]
    rfl
  · exact (perform_alike (Validator.buildsAlike_carrying carried) heap validation
      (Validator.task?_carrying carried heap asks)).1

/-- The nodes of a ring, with a sequence in place of their default group. -/
def Ring.listing (sequence : List TypeKey) : Validator :=
  .ofConfiguration
    { configuration with
      annotations :=
        [⟨[{ nodeDeclaration with groupSequence := some sequence }, orderedDeclaration]⟩] }
    .default (fun template _ _ => template) false

/-- The nodes list a group, and are validated as if it carried nothing. -/
theorem perform_carrying_ring :
    let validator := Ring.listing [Ring.node, Ring.ordered]
    let other := validator.carrying fun _ => none
    GroupRequest.sequenceOf validator.types validator.cache.configuration.groupSequence Ring.ordered
        = .ok (some [Ring.basic, Ring.extra])
      ∧ GroupRequest.sequenceOf other.types other.cache.configuration.groupSequence Ring.ordered
        = .ok none
      ∧ (∀ metadata, validator.cache.configuration.build Ring.node = .ok metadata →
        metadata.groupSequence = some [Ring.node, Ring.ordered])
      ∧ (other.perform (Ring.heap .null .null) (.graph (.bean Ring.first) [])).account
        = (validator.perform (Ring.heap .null .null) (.graph (.bean Ring.first) [])).account := by
  obtain ⟨requests, -, sequences, performs⟩ :=
    perform_carrying (Ring.listing [Ring.node, Ring.ordered]) fun _ => none
  have declared : (Ring.listing [Ring.node, Ring.ordered]).cache.configuration.declarationsFor
      Ring.ordered ≠ [] := List.cons_ne_nil _ _
  refine ⟨rfl, requests Ring.ordered rfl declared, fun metadata built => ?_,
    performs _ _ (List.forall_mem_nil _)⟩
  exact sequences Ring.node metadata built rfl

/-- **A default group does not go by what its groups carry.**  The nodes have no name, which the
first group of the carried sequence asks for; they are fine if they list the group that carries it,
and are not if they list its groups.  A circle is an error for a request, and none for the nodes. -/
theorem perform_listing_differs :
    let listing := Ring.listing [Ring.node, Ring.ordered]
    let spelling := Ring.listing [Ring.node, Ring.basic, Ring.extra]
    let circling := listing.carrying fun _ => some [Ring.ordered]
    let call := Validation.graph (.bean Ring.first) []
    GroupRequest.expand listing.types listing.cache.configuration.groupSequence
        (listing.types.infos.length + 1) [] Ring.ordered = .ok [Ring.basic, Ring.extra]
      ∧ (listing.perform (Ring.heap .null .null) call).heard.length = 0
      ∧ (spelling.perform (Ring.heap .null .null) call).heard.length = 2
      ∧ GroupRequest.expand circling.types circling.cache.configuration.groupSequence
        (circling.types.infos.length + 1) [] Ring.ordered
        = .error (.cyclicGroupSequence Ring.ordered)
      ∧ (circling.perform (Ring.heap .null .null) call).failure = none := by
  refine ⟨eq_ok_of_toOption (by decide +kernel), by decide +kernel, by decide +kernel,
    GroupRequest.expand_of_circle rfl _, ?_⟩
  exact Option.isNone_iff_eq_none.mp (by decide +kernel)

end GraphValidation
