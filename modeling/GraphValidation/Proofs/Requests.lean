/-
**What a request asks for.**

A request asks for what its groups ask for, one by one: a plain group for a pass, a group with a
sequence for the sequence of the plain groups that it stands for.

* `GroupRequest.expand_plain` — a sequence stands for groups that carry none.
* `groups?_of_plain`, `groups?_of_sequence` — what one group asks for.
* `Groups.parts` — what is asked for, part by part.
* `groups?_parts` — **the parts of a request are what its groups ask for**, each once.
-/
import GraphValidation.Proofs.Calls

namespace GraphValidation

/-! ### The parts of what is asked for -/

namespace Groups

/-- What is asked for, part by part: the plain groups, and then the sequences. -/
def parts (groups : Groups) : List Groups :=
  groups.plain.map (fun group => ⟨[group], []⟩)
    ++ groups.sequences.map (fun sequence => ⟨[], [sequence]⟩)

/-- What is asked for, and more. -/
def adding (groups more : Groups) : Groups :=
  ⟨more.plain.foldl addOnce groups.plain, more.sequences.foldl addOnce groups.sequences⟩

/-- Nothing is asked for twice. -/
structure Distinct (groups : Groups) : Prop where
  plain : groups.plain.Nodup
  sequences : groups.sequences.Nodup

variable {groups more part : Groups}

theorem mem_parts : part ∈ groups.parts ↔ (∃ group ∈ groups.plain, part = ⟨[group], []⟩)
    ∨ ∃ sequence ∈ groups.sequences, part = ⟨[], [sequence]⟩ := by
  simp only [parts, List.mem_append, List.mem_map, eq_comm]

theorem mem_parts_adding :
    part ∈ (groups.adding more).parts ↔ part ∈ groups.parts ∨ part ∈ more.parts := by
  simp only [mem_parts, adding, mem_foldl_addOnce, or_and_right, exists_or]
  exact or_or_or_comm

theorem Distinct.adding (distinct : groups.Distinct) (more : Groups) :
    (groups.adding more).Distinct :=
  ⟨nodup_foldl_addOnce distinct.plain more.plain,
    nodup_foldl_addOnce distinct.sequences more.sequences⟩

theorem Distinct.nodup_parts (distinct : groups.Distinct) : groups.parts.Nodup := by
  refine List.nodup_append.mpr ⟨?_, ?_, ?_⟩
  · refine List.pairwise_map.mpr (distinct.plain.imp fun different same => different ?_)
    cases same
    rfl
  · refine List.pairwise_map.mpr (distinct.sequences.imp fun different same => different ?_)
    cases same
    rfl
  · rintro first isFirst second isSecond rfl
    obtain ⟨group, -, rfl⟩ := List.mem_map.mp isFirst
    obtain ⟨sequence, -, same⟩ := List.mem_map.mp isSecond
    cases same

end Groups

theorem Entry.each_map {α β : Type} (step : β → Entry Unit) (part : α → β) (items : List α) :
    Entry.each step (items.map part) = Entry.each (fun item => step (part item)) items := by
  induction items with
  | nil => rfl
  | cons item rest ih =>
    rw [List.map_cons, Entry.each, Entry.each, ih]

/-- A call is made part by part. -/
theorem Setting.call_eq_each (setting : Setting) (stops : List (Except ValidationError Stop))
    (groups : Groups) : setting.call stops groups
      = Entry.each (setting.call stops) groups.parts := by
  have plain : (fun group => setting.call stops ⟨[group], []⟩) = setting.pass stops :=
    funext fun group => funext (setting.call_of_plain stops group)
  have sequences : (fun sequence => setting.call stops ⟨[], [sequence]⟩)
      = Entry.upToFirst (setting.pass stops) :=
    funext fun sequence => funext (setting.call_of_sequence stops sequence)
  rw [Groups.parts, Entry.each_append, Entry.each_map, Entry.each_map, plain, sequences]
  rfl

namespace GroupRequest

variable {types : TypeSystem} {source : SequenceSource}

/-- A group that can be asked for alone asks for one part, also after other groups. -/
theorem resolveFrom_cons {group : TypeKey} {part : Groups}
    (resolved : resolve types source [group] = .ok part) : part.parts = [part]
      ∧ ∀ groups rest, resolveFrom types source groups (group :: rest)
        = resolveFrom types source (groups.adding part) rest := by
  simp only [resolve, List.isEmpty_cons, Bool.false_eq_true, if_false, resolveFrom] at resolved
  by_cases isDefault : group = .defaultGroup
  · rw [if_pos isDefault] at resolved
    cases resolved
    refine ⟨rfl, fun groups rest => ?_⟩
    rw [resolveFrom, if_pos isDefault]
    rfl
  · rw [if_neg isDefault] at resolved
    obtain ⟨info, known, resolved⟩ := bind_eq_ok.mp resolved
    obtain ⟨carried, carries, resolved⟩ := bind_eq_ok.mp resolved
    cases carried with
    | none =>
      cases resolved
      refine ⟨rfl, fun groups rest => ?_⟩
      rw [resolveFrom, if_neg isDefault, known, carries]
      rfl
    | some members =>
      obtain ⟨sequence, expands, resolved⟩ := bind_eq_ok.mp resolved
      cases resolved
      refine ⟨rfl, fun groups rest => ?_⟩
      rw [resolveFrom, if_neg isDefault, known, carries]
      -- The group is known to carry a sequence; what is left is its expansion.
      change (do
        let sequence ← expand types source (types.infos.length + 1) [] group
        resolveFrom types source
          { groups with sequences := addOnce groups.sequences sequence } rest) = _
      rw [expands]
      rfl

/-- **The parts of a list of groups are what the groups ask for**, if each of them can be asked for
alone. -/
theorem resolveFrom_parts {requested : List TypeKey}
    (single : ∀ group ∈ requested, ∃ part, resolve types source [group] = .ok part)
    {groups : Groups} (distinct : groups.Distinct) :
    ∃ later, resolveFrom types source groups requested = .ok later ∧ later.Distinct
      ∧ ∀ part, part ∈ later.parts ↔ part ∈ groups.parts
        ∨ ∃ group ∈ requested, resolve types source [group] = .ok part := by
  induction requested generalizing groups with
  | nil => exact ⟨groups, rfl, distinct, fun part => by simp⟩
  | cons group rest ih =>
    obtain ⟨own, resolved⟩ := single group List.mem_cons_self
    obtain ⟨one, goesOn⟩ := resolveFrom_cons resolved
    obtain ⟨later, ends, distinctLater, parts⟩ :=
      ih (fun other member => single other (List.mem_cons_of_mem _ member)) (distinct.adding own)
    refine ⟨later, (goesOn groups rest).trans ends, distinctLater, fun part => ?_⟩
    rw [parts, Groups.mem_parts_adding, one, List.mem_singleton, or_assoc, @eq_comm _ part own]
    simp only [List.mem_cons, or_and_right, exists_or, exists_eq_left, resolved, Except.ok.injEq]

/-- What all expansions of members hold, the expansion of all members holds. -/
theorem expandMembers_all {holds : TypeKey → Prop}
    {expand : TypeKey → Except ConfigError (List TypeKey)}
    (each : ∀ member groups, expand member = .ok groups → ∀ group ∈ groups, holds group)
    {members out groups : List TypeKey} (before : ∀ group ∈ out, holds group)
    (expanded : expandMembers types expand members out = .ok groups) :
    ∀ group ∈ groups, holds group := by
  induction members generalizing out with
  | nil =>
    cases expanded
    exact before
  | cons member rest ih =>
    unfold expandMembers at expanded
    obtain ⟨info, -, expanded⟩ := bind_eq_ok.mp expanded
    obtain ⟨own, ofMember, expanded⟩ := bind_eq_ok.mp expanded
    refine ih (fun group inside => ?_) expanded
    exact (mem_foldl_addOnce.mp inside).elim (before group) (each member own ofMember group)

/-- **A group stands for groups that carry no sequence.** -/
theorem expand_plain {fuel : Nat} {stack : List TypeKey} {group : TypeKey} {groups : List TypeKey}
    (expanded : expand types source fuel stack group = .ok groups) :
    ∀ leaf ∈ groups, sequenceOf types source leaf = .ok none := by
  induction fuel generalizing stack group groups with
  | zero =>
    unfold expand at expanded
    split at expanded
    · cases expanded
    · obtain ⟨sequence, carried, expanded⟩ := bind_eq_ok.mp expanded
      cases sequence with
      | none =>
        cases expanded
        exact fun leaf inside => by rw [List.mem_singleton.mp inside]; exact carried
      | some members => cases expanded
  | succ fuel ih =>
    unfold expand at expanded
    split at expanded
    · cases expanded
    · obtain ⟨sequence, carried, expanded⟩ := bind_eq_ok.mp expanded
      cases sequence with
      | none =>
        cases expanded
        exact fun leaf inside => by rw [List.mem_singleton.mp inside]; exact carried
      | some members =>
        exact expandMembers_all (fun member own ofMember => ih ofMember)
          (fun _ none => absurd none List.not_mem_nil) expanded

theorem require_of_sequenceOf {group : TypeKey} {members : List TypeKey}
    (carried : sequenceOf types source group = .ok (some members)) :
    ∃ info, types.require group = .ok info := by
  unfold sequenceOf TypeSystem.isInterface at carried
  unfold TypeSystem.require
  cases found : types.get? group with
  | none => simp [found] at carried
  | some info => exact ⟨info, rfl⟩

end GroupRequest

section Planned

variable {validator : Validator} {heap : Heap} {root : Value} {requested : List TypeKey}
  {plan : Plan} {group : TypeKey} {groups : Groups}

/-- A request for a plain group asks for one pass. -/
theorem groups?_of_plain (plain : group = .defaultGroup
      ∨ GroupRequest.sequenceOf validator.types validator.cache.configuration.groupSequence group
        = .ok none)
    (resolved : validator.groups? [group] = .ok groups) : groups = ⟨[group], []⟩ := by
  simp only [Validator.groups?, GroupRequest.resolve, List.isEmpty_cons, Bool.false_eq_true,
    if_false, GroupRequest.resolveFrom] at resolved
  by_cases isDefault : group = .defaultGroup
  · rw [if_pos isDefault] at resolved
    cases resolved
    rfl
  · simp only [if_neg isDefault, plain.resolve_left isDefault] at resolved
    cases known : validator.types.require group with
    | error error =>
      rw [known] at resolved
      cases resolved
    | ok info =>
      rw [known] at resolved
      cases resolved
      rfl

/-- A request for a group with a sequence asks for the groups that it stands for, one after the
other. -/
theorem groups?_of_sequence {members expansion : List TypeKey} (named : group ≠ .defaultGroup)
    (carries : GroupRequest.sequenceOf validator.types validator.cache.configuration.groupSequence
      group = .ok (some members))
    (expands : GroupRequest.expand validator.types validator.cache.configuration.groupSequence
      (validator.types.infos.length + 1) [] group = .ok expansion) :
    validator.groups? [group] = .ok ⟨[], [expansion]⟩ := by
  obtain ⟨info, known⟩ := GroupRequest.require_of_sequenceOf carries
  simp only [Validator.groups?, GroupRequest.resolve, List.isEmpty_cons, Bool.false_eq_true,
    if_false, GroupRequest.resolveFrom, if_neg named, known, carries, expands]
  rfl

/-- **The parts of a request are what its groups ask for**, each once, if each of them can be asked
for alone. -/
theorem groups?_parts (some : requested ≠ [])
    (single : ∀ group ∈ requested, ∃ part, validator.groups? [group] = .ok part) :
    ∃ groups, validator.groups? requested = .ok groups ∧ groups.parts.Nodup
      ∧ ∀ part, part ∈ groups.parts ↔ ∃ group ∈ requested, validator.groups? [group] = .ok part := by
  have alone : ∀ group part, validator.groups? [group] = .ok part ↔ GroupRequest.resolve
      validator.types validator.cache.configuration.groupSequence [group] = .ok part := by
    intro group part
    unfold Validator.groups?
    cases GroupRequest.resolve validator.types validator.cache.configuration.groupSequence
      [group] <;> simp
  simp only [alone] at single ⊢
  obtain ⟨groups, resolved, distinct, parts⟩ := GroupRequest.resolveFrom_parts single
    (⟨List.nodup_nil, List.nodup_nil⟩ : (⟨[], []⟩ : Groups).Distinct)
  refine ⟨groups, ?_, distinct.nodup_parts, fun part => (parts part).trans ?_⟩
  · have notEmpty : requested.isEmpty = false := by simpa using some
    simp only [Validator.groups?, GroupRequest.resolve, notEmpty, Bool.false_eq_true, if_false,
      resolved]
  · exact or_iff_right List.not_mem_nil

/-- Requests differ only in the groups that they ask for. -/
theorem plan_of_groups? (planned : validator.plan heap root requested = .ok plan)
    {other : List TypeKey} (resolved : validator.groups? other = .ok groups) :
    validator.plan heap root other = .ok { plan with groups } := by
  obtain ⟨metadata, own, notNull, known, -, rfl⟩ := Validator.plan_eq_ok planned
  simp only [Validator.plan, notNull, Bool.false_eq_true, if_false, known, resolved]

end Planned

end GraphValidation
