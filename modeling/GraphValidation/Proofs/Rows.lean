/-
**A request as rows of groups.**

A redefined default group inside of a sequence is a sequence inside of a sequence.  The outer one
stops where the inner one has stopped, so the two are one: what is done for a request on one bean is
done for rows of groups, each of them up to its first violated group.

* `Entry.upToFirst_flatMap` — **sequences inside of a sequence are one sequence**.
* `Groups.rows` — the rows of a request for a type.
* `Setting.callProperty_eq_rows` — the constraints of a property are validated row by row.
-/
import GraphValidation.Proofs.PropertyCalls
import GraphValidation.Proofs.Requests

namespace GraphValidation

namespace Entry

/-! ### Sequences inside of sequences -/

/-- One group after another, from a ledger on. -/
theorem upToFirst_append {step : TypeKey → Entry Unit} (lengthens : ∀ group, Lengthens (step group))
    (first second : List TypeKey) (ledger : Ledger) :
    Entry.upToFirst step (first ++ second) ledger = match Entry.upToFirst step first ledger with
      | .ok _ later => if ledger.reported.length < later.reported.length then .ok () later
        else Entry.upToFirst step second later
      | .error error later => .error error later := by
  induction first generalizing ledger with
  | nil => exact (if_neg (Nat.lt_irrefl _)).symm
  | cons group rest ih =>
    rw [List.cons_append, upToFirst_cons, upToFirst_cons]
    cases leads : step group ledger with
    | error error later => rfl
    | ok _ between =>
      have longer := lengthens group ledger between leads
      by_cases reports : ledger.reported.length < between.reported.length
      · simp only [if_pos reports]
      · simp only [if_neg reports]
        have same : ledger.reported.length = between.reported.length := by omega
        rw [ih between, same]

/-- **Sequences inside of a sequence are one sequence.** -/
theorem upToFirst_flatMap {step : TypeKey → Entry Unit} (lengthens : ∀ group, Lengthens (step group))
    (row : TypeKey → List TypeKey) (groups : List TypeKey) :
    Entry.upToFirst (fun group => Entry.upToFirst step (row group)) groups
      = Entry.upToFirst step (groups.flatMap row) := by
  funext ledger
  induction groups generalizing ledger with
  | nil => rfl
  | cons group rest ih =>
    rw [List.flatMap_cons, upToFirst_append lengthens, upToFirst_cons]
    cases Entry.upToFirst step (row group) ledger with
    | error error later => rfl
    | ok _ later => simp only [ih]

@[simp] theorem upToFirst_singleton (step : TypeKey → Entry Unit) (group : TypeKey) :
    Entry.upToFirst step [group] = step group := by
  funext ledger
  rw [upToFirst_cons]
  cases step group ledger with
  | error error later => rfl
  | ok _ later => exact ite_self _

end Entry

/-! ### Rows -/

/-- The groups that a group stands for on a bean: those of the sequence if it is the default group
and the type redefines it. -/
def MetaBean.row (metadata : MetaBean) (group : TypeKey) : List TypeKey :=
  match metadata.groupSequence with
  | some sequence => if group = .defaultGroup then sequence else [group]
  | none => [group]

theorem Entry.forDefault_eq_row (metadata : MetaBean) (entry : TypeKey → Entry Unit)
    (group : TypeKey) :
    Entry.forDefault metadata entry group = Entry.upToFirst entry (metadata.row group) := by
  unfold Entry.forDefault MetaBean.row
  cases metadata.groupSequence with
  | none => exact (Entry.upToFirst_singleton entry group).symm
  | some sequence =>
    by_cases isDefault : group = .defaultGroup
    · simp only [if_pos isDefault]
    · simp only [if_neg isDefault, Entry.upToFirst_singleton]

/-- What is asked for on a bean, row by row. -/
def Groups.rows (groups : Groups) (metadata : MetaBean) : List (List TypeKey) :=
  groups.plain.map metadata.row ++ groups.sequences.map fun sequence => sequence.flatMap metadata.row

/-- Plain groups and sequences are gone through row by row. -/
theorem Entry.each_rows {entry : TypeKey → Entry Unit} (lengthens : ∀ group, Lengthens (entry group))
    (metadata : MetaBean) (groups : Groups) :
    (do
      Entry.each (Entry.forDefault metadata entry) groups.plain
      Entry.each (Entry.upToFirst (Entry.forDefault metadata entry)) groups.sequences)
      = Entry.each (Entry.upToFirst entry) (groups.rows metadata) := by
  have step : Entry.forDefault metadata entry
      = fun group => Entry.upToFirst entry (metadata.row group) :=
    funext (Entry.forDefault_eq_row metadata entry)
  have sequence : Entry.upToFirst (fun group => Entry.upToFirst entry (metadata.row group))
      = fun groups => Entry.upToFirst entry (groups.flatMap metadata.row) :=
    funext (Entry.upToFirst_flatMap lengthens metadata.row)
  rw [Groups.rows, Entry.each_append, Entry.each_map, Entry.each_map, step, sequence]

namespace Setting

variable (setting : Setting) (stop : Stop)

theorem sweepProperty_lengthens (property : MetaProperty) (group : TypeKey) :
    (setting.sweepProperty stop property group).Lengthens :=
  Entry.Lengthens.closed.each fun duty _ => .examine setting group stop duty

/-- **The constraints of a property are validated row by row.** -/
theorem callProperty_eq_rows (property : MetaProperty) (groups : Groups) :
    setting.callProperty stop property groups
      = Entry.each (Entry.upToFirst (setting.sweepProperty stop property))
          (groups.rows stop.metadata) :=
  Entry.each_rows (setting.sweepProperty_lengthens stop property) stop.metadata groups

end Setting

end GraphValidation
