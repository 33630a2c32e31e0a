/-
**What is above a type.**

The parents of a type are registered before it, so no type is above itself and a climb from parent
to parent ends.  The list of the types above a type is made by one such climb, with a queue; how far
it gets does not depend on its fuel.

* `TypeSystem.parents_induction` — what passes from the parents of a type to the type holds of all.
* `TypeSystem.Inherits` — a type is above another one, by any number of steps to a parent.
* `TypeSystem.Climbs`, `TypeSystem.supertypes_climbs` — the climb goes on until its queue is empty.
* `TypeSystem.mem_supertypes` — **the list of the types above a type holds them all**, and no
  other.
-/
import Mathlib.Data.List.Nodup
import Mathlib.Data.List.Perm.Subperm
import Mathlib.Logic.Relation
import GraphValidation.Type.System

namespace GraphValidation

/-! ### Registered types -/

theorem findInfo?_cons (info : TypeInfo) (older : List TypeInfo) (key : TypeKey) :
    findInfo? (info :: older) key = if info.key = key then some info else findInfo? older key := by
  by_cases same : info.key = key
  · rw [if_pos same]
    exact List.find?_cons_of_pos (by simpa using same)
  · rw [if_neg same]
    exact List.find?_cons_of_neg (by simpa using same)

namespace ParentsFirst

variable {info : TypeInfo} {infos older : List TypeInfo} {key parent : TypeKey}

/-- A later description is of another type. -/
theorem key_ne (first : ParentsFirst (info :: older)) (known : (findInfo? older key).isSome) :
    info.key ≠ key := by
  rintro rfl
  rw [first.1] at known
  cases known

/-- The parents of a type are registered. -/
theorem parent_known (first : ParentsFirst infos) (found : findInfo? infos key = some info)
    (isParent : parent ∈ info.parents) : (findInfo? infos parent).isSome := by
  induction infos with
  | nil => cases found
  | cons last older ih =>
    have known : (findInfo? older parent).isSome := by
      rw [findInfo?_cons] at found
      split at found
      · cases found
        exact first.2.1 parent isParent
      · exact ih first.2.2 found
    rw [findInfo?_cons, if_neg (first.key_ne known)]
    exact known

end ParentsFirst

/-- How many descriptions are not later than that of a type. -/
def rankAmong (key : TypeKey) : List TypeInfo → Nat
  | [] => 0
  | info :: older => if info.key = key then older.length + 1 else rankAmong key older

theorem rankAmong_le (key : TypeKey) (infos : List TypeInfo) :
    rankAmong key infos ≤ infos.length := by
  induction infos with
  | nil => exact Nat.le_refl 0
  | cons info older ih =>
    unfold rankAmong
    split
    · exact Nat.le_refl _
    · exact Nat.le_succ_of_le ih

/-- A parent ranks below the type. -/
theorem ParentsFirst.rankAmong_lt {info : TypeInfo} {infos : List TypeInfo} {key parent : TypeKey}
    (first : ParentsFirst infos) (found : findInfo? infos key = some info)
    (isParent : parent ∈ info.parents) : rankAmong parent infos < rankAmong key infos := by
  induction infos with
  | nil => cases found
  | cons last older ih =>
    rw [findInfo?_cons] at found
    unfold rankAmong
    by_cases here : last.key = key
    · rw [if_pos here] at found
      cases found
      rw [if_neg (first.key_ne (first.2.1 parent isParent)), if_pos here]
      exact Nat.lt_succ_of_le (rankAmong_le parent older)
    · rw [if_neg here] at found
      rw [if_neg (first.key_ne (first.2.2.parent_known found isParent)), if_neg here]
      exact ih first.2.2 found

namespace TypeSystem

variable {types : TypeSystem} {key parent other : TypeKey}

theorem parents_of_some {info : TypeInfo} (found : types.get? key = some info) :
    types.parents key = info.parents := by
  rw [parents, found]

theorem parents_of_none (unknown : types.get? key = none) : types.parents key = [] := by
  rw [parents, unknown]

/-- The superclass of a type, none for one that is not registered. -/
def superclass? (types : TypeSystem) (key : TypeKey) : Option TypeKey :=
  (types.get? key).bind (·.superclass)

/-- The interfaces that a type lists, none for one that is not registered. -/
def listed (types : TypeSystem) (key : TypeKey) : List TypeKey :=
  (types.get? key).elim [] (·.interfaces)

theorem mem_parents :
    parent ∈ types.parents key
      ↔ types.superclass? key = some parent ∨ parent ∈ types.listed key := by
  unfold parents superclass? listed
  cases types.get? key with
  | none => simp
  | some info => simp [TypeInfo.parents]

/-- A parent ranks below the type. -/
theorem rankAmong_lt_of_parent (isParent : parent ∈ types.parents key) :
    rankAmong parent types.infos < rankAmong key types.infos := by
  cases found : types.get? key with
  | none =>
    rw [parents_of_none found] at isParent
    cases isParent
  | some info =>
    rw [parents_of_some found] at isParent
    exact types.parentsFirst.rankAmong_lt found isParent

/-- What holds of a type whenever it holds of its parents holds of all types. -/
theorem parents_induction {motive : TypeKey → Prop}
    (step : ∀ key, (∀ parent ∈ types.parents key, motive parent) → motive key) (key : TypeKey) :
    motive key := by
  induction rank : rankAmong key types.infos using Nat.strongRecOn generalizing key with
  | ind rank ih =>
    subst rank
    exact step key fun parent isParent => ih _ (rankAmong_lt_of_parent isParent) parent rfl

/-! ### The types above a type -/

/-- A type is above another one. -/
def Inherits (types : TypeSystem) (lower upper : TypeKey) : Prop :=
  Relation.TransGen (fun type parent => parent ∈ types.parents type) lower upper

/-- Above a type are those that are next above it, and what is above these. -/
theorem above_iff {next : TypeKey → List TypeKey} :
    Relation.TransGen (fun type parent => parent ∈ next type) key other
      ↔ ∃ parent ∈ next key, other = parent
        ∨ Relation.TransGen (fun type parent => parent ∈ next type) parent other := by
  constructor
  · intro above
    obtain ⟨parent, isParent, onward⟩ := Relation.TransGen.head'_iff.mp above
    exact ⟨parent, isParent, (Relation.reflTransGen_iff_eq_or_transGen.mp onward)⟩
  · rintro ⟨parent, isParent, rfl | onward⟩
    · exact .single isParent
    · exact .head isParent onward

theorem inherits_iff :
    types.Inherits key other
      ↔ ∃ parent ∈ types.parents key, other = parent ∨ types.Inherits parent other :=
  above_iff

/-- What is above a type ranks below it. -/
theorem rankAmong_lt_of_inherits (above : types.Inherits key other) :
    rankAmong other types.infos < rankAmong key types.infos := by
  induction above with
  | single isParent => exact rankAmong_lt_of_parent isParent
  | tail _ isParent ih => exact Nat.lt_trans (rankAmong_lt_of_parent isParent) ih

/-- No type is above itself. -/
theorem not_inherits_self (key : TypeKey) : ¬ types.Inherits key key :=
  fun above => Nat.lt_irrefl _ (rankAmong_lt_of_inherits above)

theorem mem_appendNew {out more : List TypeKey} :
    other ∈ appendNew out more ↔ other ∈ out ∨ other ∈ more := by
  induction more generalizing out with
  | nil => simp [appendNew]
  | cons item rest ih =>
    unfold appendNew
    split
    · rename_i known
      rw [ih, List.mem_cons, or_left_comm]
      refine (or_iff_right_of_imp ?_).symm
      rintro rfl
      exact .inl (List.contains_iff_mem.mp known)
    · rw [ih, List.mem_append, List.mem_singleton, List.mem_cons, or_assoc]

theorem nodup_appendNew {out : List TypeKey} (nodup : out.Nodup) (more : List TypeKey) :
    (appendNew out more).Nodup := by
  induction more generalizing out with
  | nil => exact nodup
  | cons item rest ih =>
    unfold appendNew
    split
    · exact ih nodup
    · rename_i new
      refine ih (List.nodup_append.mpr ⟨nodup, by simp, ?_⟩)
      rintro a inside b isItem rfl
      exact new (List.contains_iff_mem.mpr (List.mem_singleton.mp isItem ▸ inside))

/-- What is new goes to the end. -/
theorem appendNew_eq (out more : List TypeKey) :
    ∃ new, appendNew out more = out ++ new := by
  induction more generalizing out with
  | nil => exact ⟨[], (List.append_nil out).symm⟩
  | cons item rest ih =>
    unfold appendNew
    split
    · exact ih out
    · obtain ⟨new, same⟩ := ih (out ++ [item])
      exact ⟨item :: new, by rw [same, List.append_assoc, List.singleton_append]⟩

/-- What is new is none of the old, and it is all that comes from the names to add. -/
theorem mem_new {out more new : List TypeKey} (nodup : out.Nodup)
    (grown : appendNew out more = out ++ new) : other ∈ new ↔ other ∈ more ∧ other ∉ out := by
  have disjoint := List.disjoint_of_nodup_append (grown ▸ nodup_appendNew nodup more)
  have members : other ∈ out ++ new ↔ other ∈ out ∨ other ∈ more := grown ▸ mem_appendNew
  rw [List.mem_append] at members
  constructor
  · intro isNew
    have isOther : other ∉ out := fun old => disjoint old isNew
    exact ⟨(members.mp (.inr isNew)).resolve_left isOther, isOther⟩
  · rintro ⟨added, isOther⟩
    exact (members.mpr (.inr added)).resolve_left isOther

theorem mem_keys {info : TypeInfo} (found : types.get? key = some info) :
    key ∈ types.infos.map (·.key) := by
  have named : info.key = key := by simpa using List.find?_some found
  exact List.mem_map.mpr ⟨info, List.mem_of_find?_eq_some found, named⟩

/-- Every parent is the name of a registered type. -/
theorem parent_mem_keys (isParent : parent ∈ types.parents key) :
    parent ∈ types.infos.map (·.key) := by
  cases found : types.get? key with
  | none =>
    rw [parents_of_none found] at isParent
    cases isParent
  | some info =>
    rw [parents_of_some found] at isParent
    obtain ⟨known, knows⟩ :=
      Option.isSome_iff_exists.mp (types.parentsFirst.parent_known found isParent)
    exact mem_keys knows

/-- A climb that goes on until its queue is empty, and its answer. -/
inductive Climbs (types : TypeSystem) : List TypeKey → List TypeKey → List TypeKey → Prop
  | done (out : List TypeKey) : Climbs types [] out out
  | step {first : TypeKey} {queue out new answer : List TypeKey} :
    appendNew out (types.parents first) = out ++ new →
    Climbs types (queue ++ new) (out ++ new) answer → Climbs types (first :: queue) out answer

/-- A climb with enough fuel goes on until its queue is empty.  Each type is queued when it enters
the answer, so the queue and the types that have not entered bound the steps that are left. -/
theorem climb_climbs {fuel : Nat} {queue out : List TypeKey}
    (nodup : out.Nodup) (registered : out ⊆ types.infos.map (·.key))
    (enough : queue.length + (types.infos.length - out.length) ≤ fuel) :
    types.Climbs queue out (types.climb fuel queue out) := by
  induction fuel generalizing queue out with
  | zero =>
    have done : queue = [] := List.length_eq_zero_iff.mp (by omega)
    subst done
    exact .done out
  | succ fuel ih =>
    cases queue with
    | nil => exact .done out
    | cons first queue =>
      obtain ⟨new, grown⟩ := appendNew_eq out (types.parents first)
      have nodupGrown : (out ++ new).Nodup := grown ▸ nodup_appendNew nodup (types.parents first)
      have registeredGrown : out ++ new ⊆ types.infos.map (·.key) := by
        intro type inside
        exact (List.mem_append.mp inside).elim (@registered type)
          fun isNew => parent_mem_keys ((mem_new nodup grown).mp isNew).1
      have bound : (out ++ new).length ≤ types.infos.length := by
        simpa using (nodupGrown.subperm registeredGrown).length_le
      have unfolds : types.climb (fuel + 1) (first :: queue) out
          = types.climb fuel (queue ++ new) (out ++ new) := by
        simp only [climb, grown, List.drop_left]
      rw [unfolds]
      refine .step grown (ih nodupGrown registeredGrown ?_)
      simp only [List.length_cons, List.length_append] at enough bound ⊢
      omega

/-- The climb to the types above a type comes to its end. -/
theorem supertypes_climbs (types : TypeSystem) (key : TypeKey) :
    types.Climbs [key] [] (types.supertypes key) := by
  refine climb_climbs List.nodup_nil (List.nil_subset _) ?_
  rw [List.length_singleton]
  omega

namespace Climbs

variable {queue out answer : List TypeKey}

/-- A climb answers with types above those that it starts from. -/
theorem inherits (climbs : types.Climbs queue out answer) {start : TypeKey}
    (queued : ∀ type ∈ queue, type = start ∨ types.Inherits start type)
    (answered : ∀ type ∈ out, types.Inherits start type) :
    ∀ type ∈ answer, types.Inherits start type := by
  induction climbs with
  | done => exact answered
  | @step first queue out new answer grown _ ih =>
    have isParent : ∀ parent ∈ types.parents first, types.Inherits start parent := by
      intro parent isParent
      cases queued first List.mem_cons_self with
      | inl same => exact .single (same ▸ isParent)
      | inr above => exact .tail above isParent
    have added : ∀ type ∈ out ++ new, types.Inherits start type := by
      intro type inside
      rw [← grown] at inside
      exact (mem_appendNew.mp inside).elim (answered type) (isParent type)
    refine ih (fun type inside => ?_) added
    cases List.mem_append.mp inside with
    | inl old => exact queued type (List.mem_cons_of_mem _ old)
    | inr isNew => exact .inr (added type (List.mem_append_right _ isNew))

/-- A climb keeps its answer, and ends with the parents of all that it had queued and of all that it
added. -/
theorem closed (climbs : types.Climbs queue out answer) :
    out ⊆ answer ∧ (∀ type ∈ queue, types.parents type ⊆ answer)
      ∧ ∀ type ∈ answer, type ∈ out ∨ types.parents type ⊆ answer := by
  induction climbs with
  | done out => exact ⟨List.Subset.refl out, nofun, fun _ inside => .inl inside⟩
  | @step first queue out new answer grown _ ih =>
    obtain ⟨keeps, queued, added⟩ := ih
    refine ⟨fun type inside => keeps (List.mem_append_left new inside), ?_, ?_⟩
    · intro type inside
      cases inside with
      | head => exact fun parent isParent => keeps (grown ▸ mem_appendNew.mpr (.inr isParent))
      | tail _ later => exact queued type (List.mem_append_left new later)
    · intro type inside
      cases added type inside with
      | inr closed => exact .inr closed
      | inl old =>
        cases List.mem_append.mp old with
        | inl old => exact .inl old
        | inr isNew => exact .inr (queued type (List.mem_append_right queue isNew))

end Climbs

/-- **The list of the types above a type holds them all**, and no other. -/
theorem mem_supertypes : other ∈ types.supertypes key ↔ types.Inherits key other := by
  constructor
  · exact (types.supertypes_climbs key).inherits
      (fun type inside => .inl (List.mem_singleton.mp inside)) nofun other
  · intro above
    obtain ⟨-, queued, added⟩ := (types.supertypes_climbs key).closed
    induction above with
    | single isParent => exact queued key List.mem_cons_self isParent
    | tail _ isParent ih => exact (added _ ih).elim nofun fun closed => closed isParent

end TypeSystem

end GraphValidation
