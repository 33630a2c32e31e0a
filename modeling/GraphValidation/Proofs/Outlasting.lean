/-
**A run that outlasts another one.**

Two runs go through the same groups.  One of them passes over what it has evaluated before, so it
reports less, and so its sequences stop later: it goes at least as far as the other, and holds all
that the other has found.

* `Entry.Outlasts` — a step that goes at least as far as another one, and covers it.
* `Entry.Outlasts.upToFirst` — **sequences of such steps outlast each other**.
* `Entry.Outlasts.each` — so do loops over them.
-/
import GraphValidation.Proofs.Rows

namespace GraphValidation

/-- One step goes at least as far as a second one: from a ledger that covers that of the second one it
goes to a ledger that does so too, and where it reports, the second one reports.  Alone it goes on
covering.  The second one fails only where it may. -/
structure Entry.Outlasts (covers : Ledger → Ledger → Prop) (mayFail : Prop)
    (first second : Entry Unit) : Prop where
  lengthens : first.Lengthens
  lengthensSecond : second.Lengthens
  onward : ∀ shorter longer after, covers shorter longer → first longer = .ok () after →
    covers shorter after
  follows : ∀ shorter longer after, covers shorter longer → first longer = .ok () after →
    (∃ later, second shorter = .ok () later ∧ covers later after
        ∧ (longer.reported.length < after.reported.length →
          shorter.reported.length < later.reported.length))
      ∨ mayFail ∧ ∃ error later, second shorter = .error error later

namespace Entry.Outlasts

variable {covers : Ledger → Ledger → Prop} {mayFail : Prop}

theorem nothing : Outlasts covers mayFail (Pure.pure ()) (Pure.pure ()) where
  lengthens := .nothing
  lengthensSecond := .nothing
  onward := by
    rintro shorter longer after holds succeeded
    cases succeeded
    exact holds
  follows := by
    rintro shorter longer after holds succeeded
    cases succeeded
    exact .inl ⟨shorter, rfl, holds, fun longer => absurd longer (Nat.lt_irrefl _)⟩

theorem andThen {first second next following : Entry Unit} (leads : Outlasts covers mayFail first second)
    (ends : Outlasts covers mayFail next following) :
    Outlasts covers mayFail (do first; next) (do second; following) where
  lengthens := leads.lengthens.andThen ends.lengthens
  lengthensSecond := leads.lengthensSecond.andThen ends.lengthensSecond
  onward := by
    intro shorter longer after holds succeeded
    obtain ⟨between, ofFirst, ofNext⟩ := Entry.andThen_eq_ok succeeded
    exact ends.onward shorter between after (leads.onward shorter longer between holds ofFirst) ofNext
  follows := by
    intro shorter longer after holds succeeded
    obtain ⟨between, ofFirst, ofNext⟩ := Entry.andThen_eq_ok succeeded
    rcases leads.follows shorter longer between holds ofFirst with
      ⟨middle, ofSecond, holds, reports⟩ | ⟨may, error, later, failed⟩
    · rcases ends.follows middle between after holds ofNext with
        ⟨later, ofFollowing, holds, reportsLater⟩ | ⟨may, error, later, failed⟩
      · refine .inl ⟨later, (Run.bind_of_ok ofSecond).trans ofFollowing, holds, fun grown => ?_⟩
        have longerFirst := leads.lengthensSecond shorter middle ofSecond
        have longerNext := ends.lengthensSecond middle later ofFollowing
        by_cases early : longer.reported.length < between.reported.length
        · have := reports early
          omega
        · have := reportsLater (by omega)
          omega
      · exact .inr ⟨may, error, later, (Run.bind_of_ok ofSecond).trans failed⟩
    · exact .inr ⟨may, error, later, Run.bind_of_error failed⟩

theorem each {α : Type} {first second : α → Entry Unit} {items : List α}
    (steps : ∀ item ∈ items, Outlasts covers mayFail (first item) (second item)) :
    Outlasts covers mayFail (Entry.each first items) (Entry.each second items) := by
  induction items with
  | nil => exact nothing
  | cons item rest ih =>
    exact andThen (steps item List.mem_cons_self)
      (ih fun other member => steps other (List.mem_cons_of_mem _ member))

/-- **Up to the first group that reports, the one that passes over more goes at least as far.** -/
theorem upToFirst {first second : TypeKey → Entry Unit}
    (steps : ∀ group, Outlasts covers mayFail (first group) (second group)) (groups : List TypeKey) :
    Outlasts covers mayFail (Entry.upToFirst first groups) (Entry.upToFirst second groups) := by
  induction groups with
  | nil => exact nothing
  | cons group rest ih =>
    refine ⟨.upToFirst (fun group => (steps group).lengthens) _,
      .upToFirst (fun group => (steps group).lengthensSecond) _, ?_, ?_⟩
    · intro shorter longer after holds succeeded
      obtain ⟨between, leads, ⟨-, rfl⟩ | ⟨-, ends⟩⟩ := Entry.upToFirst_eq_ok succeeded
      · exact (steps group).onward shorter longer _ holds leads
      · exact ih.onward shorter between after
          ((steps group).onward shorter longer between holds leads) ends
    · intro shorter longer after holds succeeded
      obtain ⟨between, leads, stops⟩ := Entry.upToFirst_eq_ok succeeded
      have grown := (steps group).lengthens longer between leads
      rcases (steps group).follows shorter longer between holds leads with
        ⟨middle, leadsSecond, covered, reports⟩ | ⟨may, error, later, failed⟩
      · rw [upToFirst_cons, leadsSecond]
        simp only
        by_cases stopped : shorter.reported.length < middle.reported.length
        -- The second one stops.  Whatever the first one goes on to find, it still covers it.
        · rw [if_pos stopped]
          refine .inl ⟨middle, rfl, ?_, fun _ => stopped⟩
          rcases stops with ⟨-, rfl⟩ | ⟨-, ends⟩
          · exact covered
          · exact ih.onward middle between after covered ends
        -- The second one goes on, so it has reported nothing, and neither has the first one.
        · rw [if_neg stopped]
          rcases stops with ⟨early, rfl⟩ | ⟨-, ends⟩
          · exact absurd (reports early) stopped
          · have longerSecond := (steps group).lengthensSecond shorter middle leadsSecond
            have silent : ¬ longer.reported.length < between.reported.length :=
              fun early => stopped (reports early)
            rcases ih.follows middle between after covered ends with
              ⟨later, endsSecond, coveredLater, reportsLater⟩ | failed
            · refine .inl ⟨later, endsSecond, coveredLater, fun grown => ?_⟩
              have := reportsLater (by omega)
              omega
            · exact .inr failed
      · rw [upToFirst_cons, failed]
        exact .inr ⟨may, error, later, rfl⟩

end Entry.Outlasts

end GraphValidation
