/-
**Going down with a stack.**

What a name stands for may need what other names stand for, in any way and also in circles.  Whoever
goes down from name to name keeps the names that he is in on a stack, and refuses a name that is on
it.  Each step down puts one more name on the stack, so there is an end to it; and where nothing is
refused, no way down leads back to where it came from.

* `unstacked` — how many names are not on a stack.
* `StepsDown`, `wellFounded_stepsDown` — **going down with a stack comes to an end**.
* `Descends`, `Descends.not_circle` — **where nothing is refused, there is no circle below**.
-/
import Mathlib.Logic.Relation
import Mathlib.Data.List.Count

namespace GraphValidation

/-- What one element of a list does not meet counts for less. -/
theorem countP_lt_of_mem {α : Type} {some all : α → Bool} {items : List α} {a : α}
    (implies : ∀ item, some item = true → all item = true) (member : a ∈ items)
    (meets : all a = true) (fails : some a = false) : items.countP some < items.countP all := by
  obtain ⟨before, after, rfl⟩ := List.append_of_mem member
  have first : before.countP some ≤ before.countP all :=
    List.countP_mono_left fun item _ => implies item
  have last : after.countP some ≤ after.countP all :=
    List.countP_mono_left fun item _ => implies item
  rw [List.countP_append, List.countP_append, List.countP_cons_of_pos meets,
    List.countP_cons_of_neg (by rw [fails]; exact Bool.false_ne_true)]
  omega

variable {α : Type} {names stack below : List α} {name other : α} {needs : α → α → Prop}

/-! ### Steps down -/

/-- A step down: from a name that is not on the stack to a name that it needs, with the former on
the stack. -/
structure StepsDown (needs : α → α → Prop) (lower upper : List α × α) : Prop where
  new : upper.2 ∉ upper.1
  grown : lower.1.Perm (upper.2 :: upper.1)
  needed : needs upper.2 lower.2

section Measure

variable [DecidableEq α]

/-- How many of some names are not on a stack. -/
def unstacked (names stack : List α) : Nat := names.countP fun name => name ∉ stack

theorem unstacked_le (names stack : List α) : unstacked names stack ≤ names.length :=
  List.countP_le_length

/-- A name that is put on the stack is one less that is not on it. -/
theorem unstacked_lt (known : name ∈ names) (new : name ∉ stack)
    (grown : below.Perm (name :: stack)) : unstacked names below < unstacked names stack := by
  refine countP_lt_of_mem (fun other unstacked => ?_) known (by simpa using new) ?_
  · rw [decide_eq_true_eq, grown.mem_iff, List.mem_cons, not_or] at unstacked
    exact decide_eq_true unstacked.2
  · rw [decide_eq_false_iff_not, not_not, grown.mem_iff]
    exact List.mem_cons_self

/-- **Going down with a stack comes to an end**, wherever it starts, if the names that need others
can be listed. -/
theorem wellFounded_stepsDown (listed : ∀ name other, needs name other → name ∈ names) :
    WellFounded (StepsDown needs) := by
  refine Subrelation.wf (fun steps => ?_) (measure fun place => unstacked names place.1).wf
  exact unstacked_lt (listed _ _ steps.needed) steps.new steps.grown

/-- What holds of a name below a stack if it holds one step farther down, holds everywhere. -/
theorem stack_induction (listed : ∀ name other, needs name other → name ∈ names)
    {motive : List α → α → Prop}
    (step : ∀ stack name, (name ∉ stack → ∀ below other, below.Perm (name :: stack) →
      needs name other → motive below other) → motive stack name)
    (stack : List α) (name : α) : motive stack name := by
  have everywhere : ∀ place : List α × α, motive place.1 place.2 := by
    intro place
    induction place using (wellFounded_stepsDown listed).induction with
    | _ place ih =>
      exact step place.1 place.2 fun new below other grown needed =>
        ih (below, other) ⟨new, grown, needed⟩
  exact everywhere (stack, name)

end Measure

/-! ### Circles -/

/-- Whoever succeeds with a name below a stack does not meet it on the stack, and succeeds with all
names that it needs, below it. -/
def Descends (needs : α → α → Prop) (succeeds : List α → α → Prop) : Prop :=
  ∀ stack name, succeeds stack name → name ∉ stack
    ∧ ∀ other, needs name other → ∃ below, below.Perm (name :: stack) ∧ succeeds below other

namespace Descends

variable {succeeds : List α → α → Prop} (descends : Descends needs succeeds)

include descends

/-- With a name comes success with all names below it, below a stack that has only grown. -/
theorem of_reached (success : succeeds stack name)
    (reached : Relation.ReflTransGen needs name other) :
    ∃ below, stack ⊆ below ∧ succeeds below other := by
  induction reached using Relation.ReflTransGen.head_induction_on generalizing stack with
  | refl => exact ⟨stack, List.Subset.refl stack, success⟩
  | head needed _ ih =>
    obtain ⟨-, deeper⟩ := descends _ _ success
    obtain ⟨below, grown, success⟩ := deeper _ needed
    obtain ⟨last, kept, success⟩ := ih success
    refine ⟨last, fun inside isInside => kept ?_, success⟩
    exact grown.mem_iff.mpr (List.mem_cons_of_mem _ isInside)

/-- **Where nothing is refused, there is no circle below.** -/
theorem not_circle (success : succeeds stack name)
    (reached : Relation.ReflTransGen needs name other) : ¬ Relation.TransGen needs other other := by
  intro circle
  obtain ⟨below, -, success⟩ := descends.of_reached success reached
  obtain ⟨-, deeper⟩ := descends _ _ success
  obtain ⟨next, needed, back⟩ := Relation.TransGen.head'_iff.mp circle
  obtain ⟨lower, grown, success⟩ := deeper next needed
  obtain ⟨last, kept, again⟩ := descends.of_reached success back
  exact (descends _ _ again).1 (kept (grown.mem_iff.mpr List.mem_cons_self))

end Descends

end GraphValidation
