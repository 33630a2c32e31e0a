/-
**In which order a type inherits.**

The declarations of the types above a type apply in an order that comes from two climbs, along the
superclasses and through the interfaces.  Both list a type after those that they come to it from,
and together they meet all types above a type.

* `TypeSystem.Descent` — types listed once each, and each after those above it.
* `TypeSystem.interfacesOf_descent`, `TypeSystem.mem_interfacesOf` — **the interfaces of a type are
  those that it implements**, each once and after those that it implements itself.
* `TypeSystem.Conventional` — listed interfaces are interfaces, and these have no superclass.
* `Configuration.levels_descent`, `Configuration.mem_levels` — **the levels of a type are the type
  and all types above it, each once and after everything above itself**.
-/
import GraphValidation.Proofs.Ancestry
import GraphValidation.Proofs.Metadata

namespace GraphValidation

namespace TypeSystem

variable {types : TypeSystem} {key parent other : TypeKey}

/-! ### Lists in the order of descent -/

/-- Types listed once each, and each after those that are next above it. -/
inductive Descent (next : TypeKey → List TypeKey) : List TypeKey → Prop
  | nil : Descent next []
  | snoc {out : List TypeKey} {key : TypeKey} : Descent next out → key ∉ out →
    (∀ parent ∈ next key, parent ∈ out) → Descent next (out ++ [key])

namespace Descent

variable {next : TypeKey → List TypeKey} {out items : List TypeKey}

theorem nodup (descent : Descent next out) : out.Nodup := by
  induction descent with
  | nil => exact List.nodup_nil
  | snoc _ new _ ih =>
    refine List.nodup_append.mpr ⟨ih, by simp, ?_⟩
    rintro a inside b isKey rfl
    exact new (List.mem_singleton.mp isKey ▸ inside)

theorem parent_mem (descent : Descent next out) (member : key ∈ out)
    (isParent : parent ∈ next key) : parent ∈ out := by
  induction descent with
  | nil => cases member
  | snoc _ _ parents ih =>
    cases List.mem_append.mp member with
    | inl old => exact List.mem_append_left _ (ih old)
    | inr last =>
      rw [List.mem_singleton.mp last] at isParent
      exact List.mem_append_left _ (parents _ isParent)

/-- With a type come all types above it. -/
theorem mem_of_above (descent : Descent next out) (member : key ∈ out)
    (above : Relation.TransGen (fun type parent => parent ∈ next type) key other) :
    other ∈ out := by
  induction above with
  | single isParent => exact descent.parent_mem member isParent
  | tail _ isParent ih => exact descent.parent_mem ih isParent

/-- No type is listed before one that is above it. -/
theorem pairwise (descent : Descent next out) :
    out.Pairwise fun earlier later =>
      ¬ Relation.TransGen (fun type parent => parent ∈ next type) earlier later := by
  induction descent with
  | nil => exact .nil
  | snoc before new _ ih =>
    refine List.pairwise_append.mpr ⟨ih, List.pairwise_singleton _ _, ?_⟩
    intro earlier inside later isLast above
    rw [List.mem_singleton.mp isLast] at above
    exact new (before.mem_of_above inside above)

/-- The types above a type are listed before it. -/
theorem mem_before (descent : Descent next out) {before after : List TypeKey}
    (split : out = before ++ key :: after)
    (above : Relation.TransGen (fun type parent => parent ∈ next type) key other) :
    other ∈ before := by
  induction descent generalizing after with
  | nil => simp at split
  | @snoc out last earlier new parents ih =>
    rcases List.eq_nil_or_concat after with rfl | ⟨after, final, rfl⟩
    · obtain ⟨rfl, same⟩ := List.append_inj' split rfl
      cases same
      obtain ⟨parent, isParent, rfl | onward⟩ := above_iff.mp above
      · exact parents other isParent
      · exact earlier.mem_of_above (parents parent isParent) onward
    · rw [List.concat_eq_append, ← List.cons_append, ← List.append_assoc] at split
      exact ih (List.append_inj' split rfl).1

theorem addOnce (descent : Descent next out)
    (parents : ∀ parent ∈ next key, parent ∈ out) : Descent next (addOnce out key) := by
  unfold GraphValidation.addOnce
  split
  · exact descent
  · rename_i new
    exact descent.snoc (fun inside => new (List.contains_iff_mem.mpr inside)) parents

/-- Two lists in the order of descent are merged into one. -/
theorem merge (descent : Descent next out) (more : Descent next items) :
    Descent next (items.foldl GraphValidation.addOnce out) := by
  induction more with
  | nil => exact descent
  | snoc _ _ parents ih =>
    rw [List.foldl_append]
    exact ih.addOnce fun parent isParent => mem_foldl_addOnce.mpr (.inr (parents parent isParent))

/-- What a list in the order of descent is sorted by matters for its types only. -/
theorem congr (descent : Descent next out) {other : TypeKey → List TypeKey}
    (same : ∀ key ∈ out, other key = next key) : Descent other out := by
  induction descent with
  | nil => exact .nil
  | @snoc out key _ new parents ih =>
    refine .snoc (ih fun earlier inside => same earlier (List.mem_append_left _ inside)) new ?_
    rw [same key (List.mem_append_right _ (List.mem_singleton_self key))]
    exact parents

end Descent

/-! ### Interfaces -/

/-- A type implements the interfaces that it lists, and those that they implement. -/
def Implements (types : TypeSystem) (lower upper : TypeKey) : Prop :=
  Relation.TransGen (fun type iface => iface ∈ types.listed type) lower upper

/-- What a type implements is above it. -/
theorem Implements.inherits (implements : types.Implements key other) :
    types.Inherits key other :=
  Relation.TransGen.mono (fun _ _ isListed => mem_parents.mpr (.inr isListed)) _ _ implements

/-- Collecting an interface that is not registered adds it alone. -/
theorem collectInterface_of_none {infos : List TypeInfo} {iface : TypeKey}
    (unknown : findInfo? infos iface = none) (out : List TypeKey) :
    collectInterface iface infos out = addOnce out iface := by
  induction infos with
  | nil => rfl
  | cons last older ih =>
    rw [findInfo?_cons] at unknown
    split at unknown
    · cases unknown
    · rename_i elsewhere
      rw [collectInterface, if_neg elsewhere]
      exact ih unknown

/-- Collecting an interface collects those that it lists first. -/
theorem collectInterface_of_some {infos : List TypeInfo} {info : TypeInfo} {iface : TypeKey}
    (first : ParentsFirst infos) (found : findInfo? infos iface = some info)
    (out : List TypeKey) :
    collectInterface iface infos out
      = if out.contains iface then out
        else addOnce
          (info.interfaces.foldl (fun out parent => collectInterface parent infos out) out)
          iface := by
  induction infos with
  | nil => cases found
  | cons last older ih =>
    -- The interfaces that are listed are older, so the last description does not matter to them.
    have skips : ∀ parent ∈ info.interfaces, (findInfo? older parent).isSome →
        ∀ out, collectInterface parent (last :: older) out = collectInterface parent older out := by
      intro parent _ known out
      rw [collectInterface, if_neg (first.key_ne known)]
    rw [findInfo?_cons] at found
    have known : ∀ parent ∈ info.interfaces, (findInfo? older parent).isSome := by
      intro parent isListed
      have isParent : parent ∈ info.parents := List.mem_append_right _ isListed
      split at found
      · cases found
        exact first.2.1 parent isParent
      · exact first.2.2.parent_known found isParent
    have folds : info.interfaces.foldl
          (fun out parent => collectInterface parent (last :: older) out) out
        = info.interfaces.foldl (fun out parent => collectInterface parent older out) out :=
      List.foldl_ext _ _ out fun out parent isListed =>
        skips parent isListed (known parent isListed) out
    rw [folds, collectInterface]
    split at found
    · rename_i here
      cases found
      rw [if_pos here]
      rfl
    · rename_i elsewhere
      rw [if_neg elsewhere]
      exact ih first.2.2 found

/-- Collecting interfaces adds them and what they implement, in the order of descent. -/
structure Collects (types : TypeSystem) (collect : List TypeKey → List TypeKey)
    (ifaces : List TypeKey) : Prop where
  descent : ∀ out, Descent types.listed out → Descent types.listed (collect out)
  members : ∀ out, Descent types.listed out → ∀ other, other ∈ collect out
    ↔ other ∈ out ∨ ∃ iface ∈ ifaces, other = iface ∨ types.Implements iface other

theorem Collects.foldl {collect : TypeKey → List TypeKey → List TypeKey} {ifaces : List TypeKey}
    (each : ∀ iface ∈ ifaces, Collects types (collect iface) [iface]) :
    Collects types (fun out => ifaces.foldl (fun out iface => collect iface out) out) ifaces := by
  induction ifaces with
  | nil => exact ⟨fun _ descent => descent, fun _ _ _ => by simp⟩
  | cons iface rest ih =>
    have here := each iface List.mem_cons_self
    have later := ih fun iface isLater => each iface (List.mem_cons_of_mem _ isLater)
    refine ⟨fun out descent => later.descent _ (here.descent out descent), ?_⟩
    intro out descent other
    rw [List.foldl_cons, later.members _ (here.descent out descent), here.members out descent]
    simp [or_assoc]

/-- An interface that is collected after those that it lists. -/
theorem Collects.last {below : List TypeKey → List TypeKey} {iface : TypeKey}
    (collects : Collects types below (types.listed iface)) :
    Collects types (fun out => if out.contains iface then out else addOnce (below out) iface)
      [iface] := by
  constructor
  · intro out descent
    split
    · exact descent
    · refine (collects.descent out descent).addOnce fun parent isListed => ?_
      exact (collects.members out descent parent).mpr (.inr ⟨parent, isListed, .inl rfl⟩)
  · intro out descent other
    simp only [List.mem_singleton, exists_eq_left]
    split
    · rename_i known
      have member := List.contains_iff_mem.mp known
      refine (or_iff_left_of_imp ?_).symm
      rintro (rfl | above)
      · exact member
      · exact descent.mem_of_above member above
    · have implements : types.Implements iface other
          ↔ ∃ listed ∈ types.listed iface, other = listed ∨ types.Implements listed other :=
        above_iff
      rw [mem_addOnce, collects.members out descent, ← implements, or_assoc,
        or_comm (a := other = iface)]

/-- Collecting an interface adds it and what it implements, in the order of descent. -/
theorem collectInterface_collects (iface : TypeKey) :
    Collects types (collectInterface iface types.infos) [iface] := by
  induction iface using types.parents_induction with
  | step iface ih =>
    cases found : types.get? iface with
    | none =>
      have none : types.listed iface = [] := by rw [listed, found]; rfl
      have below : Collects types id (types.listed iface) :=
        none ▸ ⟨fun _ descent => descent, fun _ _ _ => by simp⟩
      have unfolds : collectInterface iface types.infos
          = fun out => if out.contains iface then out else addOnce (id out) iface := by
        funext out
        rw [collectInterface_of_none found, id, addOnce]
        split <;> rfl
      rw [unfolds]
      exact below.last
    | some info =>
      have lists : types.listed iface = info.interfaces := by rw [listed, found]; rfl
      have below : Collects types
          (fun out => info.interfaces.foldl
            (fun out parent => collectInterface parent types.infos out) out)
          (types.listed iface) := by
        rw [lists]
        exact Collects.foldl fun parent isListed =>
          ih parent (mem_parents.mpr (.inr (lists ▸ isListed)))
      rw [funext (collectInterface_of_some types.parentsFirst found)]
      exact below.last

/-- The interfaces of a type are collected as those that it lists. -/
theorem interfacesOf_eq (types : TypeSystem) (key : TypeKey) :
    types.interfacesOf key
      = (types.listed key).foldl (fun out iface => collectInterface iface types.infos out) [] := by
  unfold interfacesOf listed
  cases types.get? key <;> rfl

/-- **The interfaces of a type are listed once each, and each after those that it implements.** -/
theorem interfacesOf_descent (types : TypeSystem) (key : TypeKey) :
    Descent types.listed (types.interfacesOf key) := by
  rw [interfacesOf_eq]
  exact (Collects.foldl fun iface _ => collectInterface_collects iface).descent [] .nil

/-- **The interfaces of a type are those that it implements.** -/
theorem mem_interfacesOf : other ∈ types.interfacesOf key ↔ types.Implements key other := by
  have collects : Collects types
      (fun out => (types.listed key).foldl
        (fun out iface => collectInterface iface types.infos out) out) (types.listed key) :=
    Collects.foldl fun iface _ => collectInterface_collects iface
  rw [interfacesOf_eq, collects.members [] .nil, or_iff_right List.not_mem_nil]
  exact above_iff.symm

/-- Only interfaces are listed as interfaces of a type, and an interface has no superclass. -/
structure Conventional (types : TypeSystem) : Prop where
  listed : ∀ info ∈ types.infos, ∀ iface ∈ info.interfaces, types.isInterface iface
  topmost : ∀ info ∈ types.infos, info.isInterface → info.superclass = none

namespace Conventional

variable (conventional : types.Conventional)

include conventional

theorem parents_of_interface (isInterface : types.isInterface key) :
    types.parents key = types.listed key := by
  cases found : types.get? key with
  | none => simp [TypeSystem.isInterface, found] at isInterface
  | some info =>
    have isInterface : info.isInterface := by
      simpa [TypeSystem.isInterface, found] using isInterface
    rw [parents_of_some found, TypeInfo.parents,
      conventional.topmost info (List.mem_of_find?_eq_some found) isInterface, TypeSystem.listed,
      found]
    rfl

theorem isInterface_of_listed (isListed : other ∈ types.listed key) : types.isInterface other := by
  unfold TypeSystem.listed at isListed
  cases found : types.get? key with
  | none => simp [found] at isListed
  | some info =>
    rw [found] at isListed
    exact conventional.listed info (List.mem_of_find?_eq_some found) other isListed

theorem isInterface_of_implements (implements : types.Implements key other) :
    types.isInterface other := by
  cases implements with
  | single isListed => exact conventional.isInterface_of_listed isListed
  | tail _ isListed => exact conventional.isInterface_of_listed isListed

/-- Above an interface is nothing but what it implements. -/
theorem implements_iff (isInterface : types.isInterface key) :
    types.Implements key other ↔ types.Inherits key other := by
  refine ⟨Implements.inherits, fun above => ?_⟩
  induction above with
  | single isParent => exact .single (conventional.parents_of_interface isInterface ▸ isParent)
  | tail _ isParent ih =>
    rw [conventional.parents_of_interface (conventional.isInterface_of_implements ih)] at isParent
    exact .tail ih isParent

/-- The interfaces of a type are listed after everything that is above them. -/
theorem interfacesOf_descent (key : TypeKey) :
    Descent types.parents (types.interfacesOf key) :=
  (TypeSystem.interfacesOf_descent types key).congr fun _ member =>
    conventional.parents_of_interface
      (conventional.isInterface_of_implements (mem_interfacesOf.mp member))

end Conventional

end TypeSystem

/-! ### Levels -/

namespace TypeSystem

/-- A chain of superclasses ends with the type, after the chain of its superclass. -/
theorem chainAmong_eq {infos : List TypeInfo} (first : ParentsFirst infos) (key : TypeKey) :
    chainAmong key infos
      = ((findInfo? infos key).bind (·.superclass)).elim [] (chainAmong · infos) ++ [key] := by
  induction infos with
  | nil => rfl
  | cons last older ih =>
    -- A superclass is older than the type, so the last description does not matter to its chain.
    have skips : ∀ superclass, (findInfo? older superclass).isSome →
        chainAmong superclass (last :: older) = chainAmong superclass older := by
      intro superclass known
      rw [chainAmong, if_neg (first.key_ne known)]
    rw [chainAmong, findInfo?_cons]
    by_cases here : last.key = key
    · rw [if_pos here, if_pos here, Option.bind_some]
      cases named : last.superclass with
      | none => rfl
      | some superclass =>
        have known := first.2.1 superclass (by simp [TypeInfo.parents, named])
        rw [Option.elim_some, skips superclass known]
    · rw [if_neg here, if_neg here, ih first.2.2]
      cases found : findInfo? older key with
      | none => rfl
      | some info =>
        rw [Option.bind_some]
        cases named : info.superclass with
        | none => rfl
        | some superclass =>
          have isParent : superclass ∈ info.parents := by simp [TypeInfo.parents, named]
          have known := first.2.2.parent_known found isParent
          rw [Option.elim_some, Option.elim_some, skips superclass known]

theorem classChain_eq (types : TypeSystem) (key : TypeKey) :
    types.classChain key = (types.superclass? key).elim [] types.classChain ++ [key] :=
  chainAmong_eq types.parentsFirst key

end TypeSystem

namespace Configuration

variable {configuration : Configuration} {type other : TypeKey}

/-- The levels of a type are those of its superclass, then its interfaces, and then the type. -/
theorem levels_eq (configuration : Configuration) (type : TypeKey) :
    configuration.levels type
      = addOnce ((configuration.types.interfacesOf type).foldl addOnce
          ((configuration.types.superclass? type).elim [] configuration.levels)) type := by
  rw [levels, TypeSystem.classChain_eq, List.foldl_append, List.foldl_cons, List.foldl_nil]
  cases configuration.types.superclass? type <;> rfl

/-- The levels of a type are the type and types above it. -/
theorem inherits_of_mem_levels (member : other ∈ configuration.levels type) :
    other = type ∨ configuration.types.Inherits type other := by
  induction type using configuration.types.parents_induction with
  | step type ih =>
    rw [levels_eq, mem_addOnce, mem_foldl_addOnce, TypeSystem.mem_interfacesOf] at member
    rcases member with (above | implements) | same
    · cases named : configuration.types.superclass? type with
      | none =>
        rw [named] at above
        cases above
      | some superclass =>
        rw [named, Option.elim_some] at above
        have isParent := TypeSystem.mem_parents.mpr (.inl named)
        exact .inr
          (TypeSystem.inherits_iff.mpr ⟨superclass, isParent, ih superclass isParent above⟩)
    · exact .inr implements.inherits
    · exact .inl same

section Conventional

variable (conventional : configuration.types.Conventional)

include conventional

theorem levels_spec (type : TypeKey) :
    TypeSystem.Descent configuration.types.parents (configuration.levels type)
      ∧ ∀ other, other ∈ configuration.levels type
          ↔ other = type ∨ configuration.types.Inherits type other := by
  induction type using configuration.types.parents_induction with
  | step type ih =>
    let above := (configuration.types.superclass? type).elim [] configuration.levels
    have descentAbove : TypeSystem.Descent configuration.types.parents above
        ∧ ∀ other, other ∈ above
          ↔ ∃ superclass, configuration.types.superclass? type = some superclass
            ∧ (other = superclass ∨ configuration.types.Inherits superclass other) := by
      cases named : configuration.types.superclass? type with
      | none =>
        simp only [above, named]
        exact ⟨.nil, fun other => by simp⟩
      | some superclass =>
        have known := ih superclass (TypeSystem.mem_parents.mpr (.inl named))
        simp only [above, named, Option.elim_some, Option.some.injEq, exists_eq_left']
        exact known
    have interfaces : ∀ other, other ∈ configuration.types.interfacesOf type
        ↔ ∃ iface ∈ configuration.types.listed type,
          other = iface ∨ configuration.types.Inherits iface other := by
      intro other
      refine TypeSystem.mem_interfacesOf.trans (TypeSystem.above_iff.trans ?_)
      refine exists_congr fun iface => and_congr_right fun isListed => or_congr_right ?_
      exact conventional.implements_iff (conventional.isInterface_of_listed isListed)
    have descent := descentAbove.1.merge (conventional.interfacesOf_descent type)
    have members : ∀ other, other ∈ (configuration.types.interfacesOf type).foldl addOnce above
        ↔ configuration.types.Inherits type other := by
      intro other
      rw [mem_foldl_addOnce, descentAbove.2, interfaces, TypeSystem.inherits_iff]
      simp only [TypeSystem.mem_parents, or_and_right, exists_or]
    rw [levels_eq]
    refine ⟨descent.addOnce fun parent isParent => (members parent).mpr (.single isParent), ?_⟩
    intro other
    rw [mem_addOnce, members, or_comm]

/-- **The levels of a type are listed once each, and each after its parents.** -/
theorem levels_descent (type : TypeKey) :
    TypeSystem.Descent configuration.types.parents (configuration.levels type) :=
  (levels_spec conventional type).1

/-- **The levels of a type are the type and all types above it.** -/
theorem mem_levels :
    other ∈ configuration.levels type
      ↔ other = type ∨ other ∈ configuration.types.supertypes type := by
  rw [TypeSystem.mem_supertypes]
  exact (levels_spec conventional type).2 other

end Conventional

end Configuration

end GraphValidation
