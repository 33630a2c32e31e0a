/-
**The types above a type come nearest first.**

The climb to the types above a type takes the first one off its queue and queues the parents that
are new.  So what waits in the queue is sorted by its distance from the start, and whatever has been
met is at most one step farther than the first one that waits; a parent that is new is exactly that
one step farther, for a shorter way to it would have led through a type that is done.

* `TypeSystem.Steps`, `TypeSystem.Nearer` — distances above a type.
* `TypeSystem.Front`, `TypeSystem.Front.step` — what a climb keeps from step to step.
* `TypeSystem.supertypes_sorted` — **the types above a type are listed nearest first**.
-/
import Mathlib.Data.List.Pairwise
import GraphValidation.Proofs.Ancestry

namespace GraphValidation

namespace TypeSystem

variable {types : TypeSystem} {start type : TypeKey}

/-! ### Distances -/

/-- A type is so many steps to a parent above a start. -/
inductive Steps (types : TypeSystem) (start : TypeKey) : Nat → TypeKey → Prop
  | start : Steps types start 0 start
  | parent {count : Nat} {type parent : TypeKey} : Steps types start count type →
    parent ∈ types.parents type → Steps types start (count + 1) parent

/-- A type is at most so many steps above a start. -/
def Near (types : TypeSystem) (start : TypeKey) (bound : Nat) (type : TypeKey) : Prop :=
  ∃ count ≤ bound, types.Steps start count type

/-- A type is no farther above a start than another one. -/
def Nearer (types : TypeSystem) (start nearer farther : TypeKey) : Prop :=
  ∀ count, types.Steps start count farther → types.Near start count nearer

theorem Near.mono {bound more : Nat} (near : types.Near start bound type) (le : bound ≤ more) :
    types.Near start more type := by
  obtain ⟨count, within, steps⟩ := near
  exact ⟨count, Nat.le_trans within le, steps⟩

theorem Near.parent {bound : Nat} {parent : TypeKey} (near : types.Near start bound type)
    (isParent : parent ∈ types.parents type) : types.Near start (bound + 1) parent := by
  obtain ⟨count, within, steps⟩ := near
  exact ⟨count + 1, Nat.succ_le_succ within, steps.parent isParent⟩

theorem Nearer.near {nearer farther : TypeKey} (before : types.Nearer start nearer farther)
    {bound : Nat} (near : types.Near start bound farther) : types.Near start bound nearer := by
  obtain ⟨count, within, steps⟩ := near
  exact (before count steps).mono within

/-! ### The front of a climb -/

/-- A climb has come from a start to a front: the types that are done, those that wait in the queue,
and the answer that has been met so far. -/
structure Front (types : TypeSystem) (start : TypeKey) (done queue out : List TypeKey) : Prop where
  met : start :: out = done ++ queue
  nodup : out.Nodup
  above : ∀ type ∈ out, types.Inherits start type
  closed : ∀ type ∈ done, types.parents type ⊆ out
  sorted : (start :: out).Pairwise (types.Nearer start)
  /-- What has been met is at most one step farther than what waits. -/
  ahead : ∀ waiting ∈ queue, ∀ type ∈ out, ∀ count, types.Near start count waiting →
    types.Near start (count + 1) type

namespace Front

variable {first : TypeKey} {done queue out new : List TypeKey}

theorem beginning (types : TypeSystem) (start : TypeKey) : Front types start [] [start] [] where
  met := rfl
  nodup := List.nodup_nil
  above := nofun
  closed := nofun
  sorted := List.pairwise_singleton _ _
  ahead := fun _ _ => nofun

/-- No type that waits is nearer than the first one. -/
theorem first_near (front : Front types start done (first :: queue) out)
    (waits : type ∈ first :: queue) {count : Nat} (near : types.Near start count type) :
    types.Near start count first := by
  have sorted := front.sorted
  rw [front.met] at sorted
  have waiting := (List.pairwise_append.mp sorted).2.1
  rw [List.pairwise_cons] at waiting
  cases waits with
  | head => exact near
  | tail _ later => exact (waiting.1 type later).near near

/-- The way to a type that is not done comes past the front. -/
theorem first_near_of_not_done (front : Front types start done (first :: queue) out) {count : Nat}
    (steps : types.Steps start count type) (pending : type ∉ done) :
    types.Near start count first := by
  have waits : ∀ met ∈ start :: out, met ∉ done → met ∈ first :: queue := by
    intro met isMet
    rw [front.met] at isMet
    exact (List.mem_append.mp isMet).resolve_left
  induction steps with
  | start =>
    exact front.first_near (waits start List.mem_cons_self pending) ⟨0, Nat.le_refl 0, .start⟩
  | @parent count below parent steps isParent ih =>
    by_cases isDone : below ∈ done
    · have isMet : parent ∈ out := front.closed below isDone isParent
      have near : types.Near start (count + 1) parent :=
        ⟨count + 1, Nat.le_refl _, steps.parent isParent⟩
      exact front.first_near (waits parent (List.mem_cons_of_mem _ isMet) pending) near
    · exact (ih isDone).mono (Nat.le_succ count)

/-- A type that has not been met is farther than the first one that waits. -/
theorem first_near_of_not_met (front : Front types start done (first :: queue) out)
    (notMet : type ∉ start :: out) {count : Nat} (steps : types.Steps start count type) :
    ∃ fewer, fewer + 1 ≤ count ∧ types.Near start fewer first := by
  cases steps with
  | start => exact absurd List.mem_cons_self notMet
  | @parent count below _ steps isParent =>
    refine ⟨count, Nat.le_refl _, front.first_near_of_not_done steps fun isDone => ?_⟩
    exact notMet (List.mem_cons_of_mem _ (front.closed below isDone isParent))

/-- **One step of a climb**: the first type that waits is done, and its parents that are new wait at
the end. -/
theorem step (front : Front types start done (first :: queue) out)
    (grown : appendNew out (types.parents first) = out ++ new) :
    Front types start (done ++ [first]) (queue ++ new) (out ++ new) := by
  have isFirst : first ∈ start :: out :=
    front.met ▸ List.mem_append_right done List.mem_cons_self
  have members : ∀ type ∈ new, type ∈ types.parents first ∧ type ∉ out :=
    fun type isNew => (mem_new front.nodup grown).mp isNew
  have aboveNew : ∀ type ∈ new, types.Inherits start type := by
    intro type isNew
    have isParent := (members type isNew).1
    cases isFirst with
    | head => exact .single isParent
    | tail _ inside => exact .tail (front.above first inside) isParent
  have notMet : ∀ type ∈ new, type ∉ start :: out := by
    intro type isNew isMet
    cases isMet with
    | head => exact not_inherits_self start (aboveNew start isNew)
    | tail _ old => exact (members type isNew).2 old
  -- Whatever waits after the step has the first type at most as near, and so all that has been met
  -- at most one step farther.
  have next : ∀ count, types.Near start count first →
      ∀ type ∈ out ++ new, types.Near start (count + 1) type := by
    intro count near type isMet
    cases List.mem_append.mp isMet with
    | inl old => exact front.ahead first List.mem_cons_self type old count near
    | inr isNew => exact near.parent (members type isNew).1
  have fromNew : ∀ type ∈ start :: (out ++ new), ∀ later ∈ new, types.Nearer start type later := by
    intro type isMet later isNew count steps
    obtain ⟨fewer, le, near⟩ := front.first_near_of_not_met (notMet later isNew) steps
    cases isMet with
    | head => exact ⟨0, Nat.zero_le count, .start⟩
    | tail _ inside => exact (next fewer near type inside).mono le
  refine ⟨?_, ?_, ?_, ?_, ?_, ?_⟩
  · rw [← List.cons_append, front.met, List.append_assoc, List.append_assoc, List.cons_append,
      List.singleton_append]
  · exact grown ▸ nodup_appendNew front.nodup _
  · exact fun type isMet => (List.mem_append.mp isMet).elim (front.above type) (aboveNew type)
  · intro type isDone parent isParent
    cases List.mem_append.mp isDone with
    | inl before => exact List.mem_append_left new (front.closed type before isParent)
    | inr last =>
      rw [List.mem_singleton.mp last] at isParent
      exact grown ▸ mem_appendNew.mpr (.inr isParent)
  · rw [← List.cons_append]
    refine List.pairwise_append.mpr ⟨front.sorted, ?_, ?_⟩
    · exact List.pairwise_of_forall_mem_list fun type isNew later isLater =>
        fromNew type (List.mem_cons_of_mem _ (List.mem_append_right _ isNew)) later isLater
    · intro type isMet later isLater
      exact fromNew type (List.mem_append_left new isMet) later isLater
  · intro waiting waits type isMet count near
    refine next count ?_ type isMet
    cases List.mem_append.mp waits with
    | inl old => exact front.first_near (List.mem_cons_of_mem _ old) near
    | inr isNew =>
      obtain ⟨steps, within, reached⟩ := near
      obtain ⟨fewer, le, near⟩ := front.first_near_of_not_met (notMet waiting isNew) reached
      exact near.mono (by omega)

end Front

/-- What a climb keeps holds of its answer. -/
theorem Climbs.front {done queue out answer : List TypeKey}
    (climbs : types.Climbs queue out answer) (front : Front types start done queue out) :
    ∃ done, Front types start done [] answer := by
  induction climbs generalizing done with
  | done => exact ⟨done, front⟩
  | step grown _ ih => exact ih (front.step grown)

/-- No type is listed twice among those above a type. -/
theorem nodup_supertypes (types : TypeSystem) (key : TypeKey) : (types.supertypes key).Nodup := by
  obtain ⟨_, front⟩ := (types.supertypes_climbs key).front (.beginning types key)
  exact front.nodup

/-- **The types above a type are listed nearest first.** -/
theorem supertypes_sorted (types : TypeSystem) (key : TypeKey) :
    (types.supertypes key).Pairwise (types.Nearer key) := by
  obtain ⟨_, front⟩ := (types.supertypes_climbs key).front (.beginning types key)
  exact front.sorted.of_cons

end TypeSystem

end GraphValidation
