/-
**A sequence stands for its full flattening.**

A group that carries a sequence stands for the groups of its members, one after the other, and these
for those of theirs.  The expansion goes down with a stack, leaves out on each level what it has
listed before, and refuses a group that is on the stack.  To leave out repetitions early or late
makes no difference, so what comes out is the whole flattening with later repetitions removed; and a
group is refused only if it leads back to itself, however often it is met.

* `GroupRequest.Lists` — a group is a member of the sequence that another one carries.
* `GroupRequest.expansion_eq` — an expansion never comes to the bound of its depth.
* `GroupRequest.Flattens`, `GroupRequest.flattens_of_expansion` — **an expansion is the flattening**
  without later repetitions.
* `GroupRequest.Fault`, `GroupRequest.fault_of_expansion` — why an expansion fails.
* `GroupRequest.resolve_answers` — **what a request is answered with**.
-/
import Mathlib.Data.List.Forall2
import Mathlib.Data.List.Induction
import GraphValidation.Proofs.Ancestry
import GraphValidation.Proofs.Requests
import GraphValidation.Proofs.Stacking

namespace GraphValidation

/-! ### Lists without repetitions -/

section Distinct

variable {α : Type} [BEq α] [LawfulBEq α]

theorem addOnce_of_mem {items : List α} {item : α} (known : item ∈ items) :
    addOnce items item = items :=
  if_pos (List.contains_iff_mem.mpr known)

theorem addOnce_of_not_mem {items : List α} {item : α} (new : item ∉ items) :
    addOnce items item = items ++ [item] :=
  if_neg (mt List.contains_iff_mem.mp new)

/-- What is added once each is the list without later repetitions. -/
theorem foldl_addOnce_nil (items : List α) : items.foldl addOnce [] = items.eraseDups := by
  -- Whether an item is added depends on those before it, so the induction is from the end.
  induction items using List.reverseRecOn with
  | nil => rfl
  | append_singleton items item ih =>
    rw [List.foldl_append, ih, List.foldl_cons, List.foldl_nil, List.eraseDups_append]
    by_cases known : item ∈ items
    · rw [addOnce_of_mem (List.mem_eraseDups.mpr known)]
      simp [List.removeAll, known]
    · rw [addOnce_of_not_mem (mt List.mem_eraseDups.mp known)]
      simp [List.removeAll, known, List.eraseDups_cons]

/-- Repetitions may be removed before. -/
theorem foldl_addOnce_eraseDups (items out : List α) :
    items.eraseDups.foldl addOnce out = items.foldl addOnce out := by
  rw [← foldl_addOnce_nil]
  induction items using List.reverseRecOn with
  | nil => rfl
  | append_singleton items item ih =>
    simp only [List.foldl_append, List.foldl_cons, List.foldl_nil, ← ih]
    by_cases known : item ∈ items.foldl addOnce []
    · rw [addOnce_of_mem known, addOnce_of_mem (mem_foldl_addOnce.mpr (.inr known))]
    · rw [addOnce_of_not_mem known, List.foldl_append, List.foldl_cons, List.foldl_nil]

theorem foldl_addOnce_flatMap {β : Type} (flat : β → List α) (items : List β) (out : List α) :
    (items.flatMap fun item => (flat item).eraseDups).foldl addOnce out
      = (items.flatMap flat).foldl addOnce out := by
  induction items generalizing out with
  | nil => rfl
  | cons item rest ih =>
    rw [List.flatMap_cons, List.flatMap_cons, List.foldl_append, List.foldl_append, ih,
      foldl_addOnce_eraseDups]

end Distinct

namespace GroupRequest

section Definitions

variable (types : TypeSystem) (source : SequenceSource)

/-- A group is a member of the sequence that another one carries. -/
def Lists (group member : TypeKey) : Prop :=
  ∃ members, sequenceOf types source group = .ok (some members) ∧ member ∈ members

/-- Whether a group carries a sequence. -/
def carries (group : TypeKey) : Bool :=
  match sequenceOf types source group with
  | .ok (some _) => true
  | _ => false

/-- Whether a request for a group asks for the group alone. -/
def standsAlone (group : TypeKey) : Bool := group == .defaultGroup || !carries types source group

/-- What a group stands for, given what groups stand for below a stack that holds it as well. -/
def expandStep (below : List TypeKey → TypeKey → Except ConfigError (List TypeKey))
    (stack : List TypeKey) (group : TypeKey) : Except ConfigError (List TypeKey) := do
  if stack.contains group then .error (.cyclicGroupSequence group)
  else match ← sequenceOf types source group with
    | none => .ok [group]
    | some members => expandMembers types (below (group :: stack)) members []

/-- What a group stands for below a stack. -/
def expansion (stack : List TypeKey) (group : TypeKey) : Except ConfigError (List TypeKey) :=
  expand types source (types.infos.length + 1) stack group

/-- The flattening of a group, with all repetitions: the group itself, or the flattenings of its
members one after the other. -/
inductive Flattens : TypeKey → List TypeKey → Prop
  | plain {group : TypeKey} : sequenceOf types source group = .ok none → Flattens group [group]
  | sequence {group : TypeKey} {members : List TypeKey} (flat : TypeKey → List TypeKey) :
    sequenceOf types source group = .ok (some members) →
    (∀ member ∈ members, Flattens member (flat member)) → Flattens group (members.flatMap flat)

/-- What can be wrong with a group: one that it leads to is not registered or leads back to itself,
or nobody knows what it carries. -/
inductive Fault (group : TypeKey) : ConfigError → Prop
  | unknown {other : TypeKey} : Relation.ReflTransGen (Lists types source) group other →
    types.get? other = none → Fault group (.unknownType other)
  | circular {other : TypeKey} : Relation.ReflTransGen (Lists types source) group other →
    Relation.TransGen (Lists types source) other other → Fault group (.cyclicGroupSequence other)
  | source {other : TypeKey} {error : ConfigError} :
    Relation.ReflTransGen (Lists types source) group other → types.isInterface other →
    source other = .error error → Fault group error

end Definitions

variable {types : TypeSystem} {source : SequenceSource} {stack groups : List TypeKey}
  {group other : TypeKey} {error : ConfigError}

/-! ### Fuel -/

theorem expand_succ_eq (fuel : Nat) :
    expand types source (fuel + 1) = expandStep types source (expand types source fuel) := by
  funext stack group
  rw [expand]
  rfl

/-- Only registered groups carry sequences. -/
theorem mem_keys_of_sequenceOf {members : List TypeKey}
    (carried : sequenceOf types source group = .ok (some members)) :
    group ∈ types.infos.map (·.key) := by
  obtain ⟨info, known⟩ := require_of_sequenceOf carried
  exact TypeSystem.mem_keys (TypeSystem.require_eq_ok.mp known)

/-- A step sees only what groups stand for one step farther down. -/
theorem expandStep_congr {first second : List TypeKey → TypeKey → Except ConfigError (List TypeKey)}
    (agree : group ∉ stack → ∀ members, sequenceOf types source group = .ok (some members) →
      first (group :: stack) = second (group :: stack)) :
    expandStep types source first stack group = expandStep types source second stack group := by
  unfold expandStep
  by_cases listed : group ∈ stack
  · rw [if_pos (List.contains_iff_mem.mpr listed), if_pos (List.contains_iff_mem.mpr listed)]
  · rw [if_neg (mt List.contains_iff_mem.mp listed), if_neg (mt List.contains_iff_mem.mp listed)]
    cases carried : sequenceOf types source group with
    | error error => rfl
    | ok sequence =>
      cases sequence with
      | none => rfl
      | some members =>
        exact congrArg (expandMembers types · members []) (agree listed members carried)

/-- More fuel than there are groups off the stack makes no difference. -/
theorem expand_succ {fuel : Nat} (enough : unstacked (types.infos.map (·.key)) stack ≤ fuel) :
    expand types source fuel stack group = expand types source (fuel + 1) stack group := by
  induction fuel generalizing stack group with
  | zero =>
    rw [expand_succ_eq, expand, expandStep]
    by_cases listed : group ∈ stack
    · rw [if_pos (List.contains_iff_mem.mpr listed), if_pos (List.contains_iff_mem.mpr listed)]
    · rw [if_neg (mt List.contains_iff_mem.mp listed), if_neg (mt List.contains_iff_mem.mp listed)]
      cases carried : sequenceOf types source group with
      | error error => rfl
      | ok sequence =>
        cases sequence with
        | none => rfl
        | some members =>
          have less := unstacked_lt (mem_keys_of_sequenceOf carried) listed (.refl _)
          omega
  | succ fuel ih =>
    rw [expand_succ_eq, expand_succ_eq]
    refine expandStep_congr fun new members carried => funext fun member => ih ?_
    have less := unstacked_lt (mem_keys_of_sequenceOf carried) new (.refl _)
    omega

/-- **An expansion never comes to the bound of its depth**, below any stack: below each group it
goes on with the same bound. -/
theorem expansion_eq :
    expansion types source = expandStep types source (expansion types source) := by
  funext stack group
  unfold expansion
  rw [expand_succ_eq]
  refine expandStep_congr fun new members carried => funext fun member => ?_
  rw [← expand_succ_eq]
  refine expand_succ ?_
  simpa using unstacked_le (types.infos.map (·.key)) (group :: stack)

/-! ### What a step does -/

theorem expandStep_eq_ok {below : List TypeKey → TypeKey → Except ConfigError (List TypeKey)}
    (expanded : expandStep types source below stack group = .ok groups) : group ∉ stack
      ∧ (sequenceOf types source group = .ok none ∧ groups = [group]
        ∨ ∃ members, sequenceOf types source group = .ok (some members)
          ∧ expandMembers types (below (group :: stack)) members [] = .ok groups) := by
  unfold expandStep at expanded
  split at expanded
  · cases expanded
  · next new =>
    refine ⟨mt List.contains_iff_mem.mpr new, ?_⟩
    obtain ⟨sequence, carried, expanded⟩ := bind_eq_ok.mp expanded
    cases sequence with
    | none =>
      cases expanded
      exact .inl ⟨carried, rfl⟩
    | some members => exact .inr ⟨members, carried, expanded⟩

theorem expandStep_eq_error {below : List TypeKey → TypeKey → Except ConfigError (List TypeKey)}
    (failed : expandStep types source below stack group = .error error) :
    group ∈ stack ∧ error = .cyclicGroupSequence group
      ∨ group ∉ stack ∧ (sequenceOf types source group = .error error
        ∨ ∃ members, sequenceOf types source group = .ok (some members)
          ∧ expandMembers types (below (group :: stack)) members [] = .error error) := by
  unfold expandStep at failed
  split at failed
  · next listed =>
    cases failed
    exact .inl ⟨List.contains_iff_mem.mp listed, rfl⟩
  · next new =>
    refine .inr ⟨mt List.contains_iff_mem.mpr new, ?_⟩
    refine (bind_eq_error.mp failed).imp id ?_
    rintro ⟨sequence, carried, failed⟩
    cases sequence with
    | none => cases failed
    | some members => exact ⟨members, carried, failed⟩

/-- The members are known and stand for something; all that they stand for is added, each once. -/
theorem expandMembers_eq_ok {expand : TypeKey → Except ConfigError (List TypeKey)}
    {members out : List TypeKey} (expanded : expandMembers types expand members out = .ok groups) :
    (∀ member ∈ members, (∃ info, types.require member = .ok info) ∧ ∃ own, expand member = .ok own)
      ∧ groups
        = (members.flatMap fun member => (expand member).toOption.getD []).foldl addOnce out := by
  induction members generalizing out with
  | nil =>
    cases expanded
    exact ⟨nofun, rfl⟩
  | cons member rest ih =>
    unfold expandMembers at expanded
    obtain ⟨info, known, expanded⟩ := bind_eq_ok.mp expanded
    obtain ⟨own, ofMember, expanded⟩ := bind_eq_ok.mp expanded
    obtain ⟨others, listed⟩ := ih expanded
    refine ⟨List.forall_mem_cons.mpr ⟨⟨⟨info, known⟩, own, ofMember⟩, others⟩, ?_⟩
    rw [listed, List.flatMap_cons, List.foldl_append, ofMember]
    rfl

theorem expandMembers_eq_error {expand : TypeKey → Except ConfigError (List TypeKey)}
    {members out : List TypeKey} (failed : expandMembers types expand members out = .error error) :
    ∃ member ∈ members, types.require member = .error error ∨ expand member = .error error := by
  induction members generalizing out with
  | nil => cases failed
  | cons member rest ih =>
    unfold expandMembers at failed
    rcases bind_eq_error.mp failed with unknown | ⟨info, -, failed⟩
    · exact ⟨member, List.mem_cons_self, .inl unknown⟩
    · rcases bind_eq_error.mp failed with here | ⟨own, -, later⟩
      · exact ⟨member, List.mem_cons_self, .inr here⟩
      · obtain ⟨other, inside, fails⟩ := ih later
        exact ⟨other, List.mem_cons_of_mem _ inside, fails⟩

/-! ### Expansions -/

theorem mem_keys_of_lists (types : TypeSystem) (source : SequenceSource) :
    ∀ group other, Lists types source group other → group ∈ types.infos.map (·.key) :=
  fun _ _ ⟨_, carried, _⟩ => mem_keys_of_sequenceOf carried

/-- A group that can be expanded is on no stack, and its members are known and can be expanded. -/
theorem lists_of_expansion (expanded : expansion types source stack group = .ok groups)
    (lists : Lists types source group other) : (∃ info, types.require other = .ok info)
      ∧ ∃ own, expansion types source (group :: stack) other = .ok own := by
  rw [expansion_eq] at expanded
  obtain ⟨members, carried, isMember⟩ := lists
  obtain ⟨-, ⟨plain, -⟩ | ⟨listed, carries, expanded⟩⟩ := expandStep_eq_ok expanded
  · rw [carried] at plain
    cases plain
  · rw [carried] at carries
    cases carries
    exact (expandMembers_eq_ok expanded).1 other isMember

theorem expansion_descends : Descends (Lists types source) fun stack group =>
    ∃ groups, expansion types source stack group = .ok groups := by
  rintro stack group ⟨groups, expanded⟩
  have unfolded := expanded
  rw [expansion_eq] at unfolded
  refine ⟨(expandStep_eq_ok unfolded).1, fun other lists => ⟨group :: stack, .refl _, ?_⟩⟩
  exact (lists_of_expansion expanded lists).2

/-- **A group stands for its flattening**, without later repetitions. -/
theorem flattens_of_expansion (expanded : expansion types source stack group = .ok groups) :
    ∃ flat, Flattens types source group flat ∧ groups = flat.eraseDups := by
  induction stack, group using stack_induction (mem_keys_of_lists types source)
    generalizing groups with
  | step stack group ih =>
    rw [expansion_eq] at expanded
    obtain ⟨new, ⟨plain, rfl⟩ | ⟨members, carried, expanded⟩⟩ := expandStep_eq_ok expanded
    · exact ⟨[group], .plain plain, by simp [List.eraseDups_cons]⟩
    · obtain ⟨each, rfl⟩ := expandMembers_eq_ok expanded
      -- Each member has left out its own repetitions; what is left out of them all is the same.
      have flattened : ∀ member ∈ members, ∃ flat, Flattens types source member flat
          ∧ (expansion types source (group :: stack) member).toOption.getD [] = flat.eraseDups := by
        intro member isMember
        obtain ⟨-, own, ofMember⟩ := each member isMember
        obtain ⟨flat, flattens, same⟩ :=
          ih new (group :: stack) member (.refl _) ⟨members, carried, isMember⟩ ofMember
        exact ⟨flat, flattens, by rw [ofMember]; exact same⟩
      choose! flat flattens same using flattened
      refine ⟨members.flatMap flat, .sequence flat carried flattens, ?_⟩
      rw [List.flatMap_congr same, foldl_addOnce_flatMap, foldl_addOnce_nil]

/-- A group has one flattening. -/
theorem Flattens.unique {first second : List TypeKey} (one : Flattens types source group first)
    (other : Flattens types source group second) : first = second := by
  induction one generalizing second with
  | plain plain =>
    cases other with
    | plain => rfl
    | sequence _ carried _ =>
      rw [plain] at carried
      cases carried
  | @sequence group members flat carried _ ih =>
    cases other with
    | plain plain =>
      rw [carried] at plain
      cases plain
    | sequence flat' carried' each =>
      rw [carried] at carried'
      cases carried'
      exact List.flatMap_congr fun member isMember => ih member isMember (each member isMember)

/-! ### Faults -/

/-- What is wrong with a member is wrong with the group. -/
theorem Fault.head (lists : Lists types source group other)
    (fault : Fault types source other error) : Fault types source group error := by
  cases fault with
  | unknown reached unknown => exact .unknown (.head lists reached) unknown
  | circular reached circle => exact .circular (.head lists reached) circle
  | source reached isInterface failed => exact .source (.head lists reached) isInterface failed

/-- Whoever does not know what a group carries has been told so by the source. -/
theorem fault_of_sequenceOf (failed : sequenceOf types source group = .error error) :
    Fault types source group error := by
  unfold sequenceOf at failed
  split at failed
  · next isInterface => exact .source .refl isInterface failed
  · cases failed

theorem fault_of_require (failed : types.require group = .error error) :
    Fault types source group error := by
  obtain ⟨unknown, rfl⟩ := TypeSystem.require_eq_error.mp failed
  exact .unknown .refl unknown

/-- **An expansion fails for a fault of the group.**  The groups on the stack all lead to the group,
so one that is met on the stack leads back to itself. -/
theorem fault_of_expansion
    (above : ∀ upper ∈ stack, Relation.TransGen (Lists types source) upper group)
    (failed : expansion types source stack group = .error error) :
    Fault types source group error := by
  induction stack, group using stack_induction (mem_keys_of_lists types source) with
  | step stack group ih =>
    rw [expansion_eq] at failed
    rcases expandStep_eq_error failed with ⟨listed, rfl⟩ | ⟨new, unanswered | ⟨members, deeper⟩⟩
    · exact .circular .refl (above group listed)
    · exact fault_of_sequenceOf unanswered
    · obtain ⟨carried, failed⟩ := deeper
      obtain ⟨member, isMember, fails⟩ := expandMembers_eq_error failed
      have lists : Lists types source group member := ⟨members, carried, isMember⟩
      refine .head lists (fails.elim fault_of_require fun failed => ?_)
      refine ih new (group :: stack) member (.refl _) lists (fun upper listed => ?_) failed
      cases listed with
      | head => exact .single lists
      | tail _ listed => exact .tail (above upper listed) lists

/-! ### Requests -/

theorem expansion_of_plain (plain : sequenceOf types source group = .ok none) :
    expansion types source [] group = .ok [group] := by
  rw [expansion_eq, expandStep, plain]
  rfl

/-- What one requested group asks for: itself, or the sequence that it stands for. -/
theorem resolveFrom_eq_ok {requested : List TypeKey} {before after : Groups}
    (resolved : resolveFrom types source before requested = .ok after) :
    (∀ group ∈ requested, group ≠ .defaultGroup → (∃ info, types.require group = .ok info)
        ∧ ∃ own, expansion types source [] group = .ok own)
      ∧ after.plain = (requested.filter (standsAlone types source)).foldl addOnce before.plain
      ∧ after.sequences = ((requested.filter (!standsAlone types source ·)).map fun group =>
          (expansion types source [] group).toOption.getD []).foldl addOnce before.sequences := by
  induction requested generalizing before with
  | nil =>
    cases resolved
    exact ⟨nofun, rfl, rfl⟩
  | cons group rest ih =>
    unfold resolveFrom at resolved
    split at resolved
    · next isDefault =>
      have alone : standsAlone types source group := by simp [standsAlone, isDefault]
      obtain ⟨others, plain, sequences⟩ := ih resolved
      refine ⟨List.forall_mem_cons.mpr ⟨fun named => absurd isDefault named, others⟩, ?_, ?_⟩
      · rw [plain, List.filter_cons_of_pos alone]
        rfl
      · rw [sequences, List.filter_cons_of_neg (by simp [alone])]
    · next named =>
      obtain ⟨info, known, resolved⟩ := bind_eq_ok.mp resolved
      obtain ⟨sequence, carried, resolved⟩ := bind_eq_ok.mp resolved
      cases sequence with
      | none =>
        have alone : standsAlone types source group := by simp [standsAlone, carries, carried]
        obtain ⟨others, plain, sequences⟩ := ih resolved
        refine ⟨List.forall_mem_cons.mpr ⟨fun _ => ?_, others⟩, ?_, ?_⟩
        · exact ⟨⟨info, known⟩, [group], expansion_of_plain carried⟩
        · rw [plain, List.filter_cons_of_pos alone]
          rfl
        · rw [sequences, List.filter_cons_of_neg (by simp [alone])]
      | some members =>
        have together : standsAlone types source group = false := by
          simp [standsAlone, carries, carried, named]
        obtain ⟨own, expanded, resolved⟩ := bind_eq_ok.mp resolved
        have ofGroup : expansion types source [] group = .ok own := expanded
        obtain ⟨others, plain, sequences⟩ := ih resolved
        refine ⟨List.forall_mem_cons.mpr ⟨fun _ => ⟨⟨info, known⟩, own, ofGroup⟩, others⟩, ?_, ?_⟩
        · rw [plain, List.filter_cons_of_neg (by simp [together])]
        · rw [sequences, List.filter_cons_of_pos (by simp [together]), List.map_cons,
            List.foldl_cons, ofGroup]
          rfl

theorem resolveFrom_eq_error {requested : List TypeKey} {before : Groups}
    (failed : resolveFrom types source before requested = .error error) :
    ∃ group ∈ requested, group ≠ .defaultGroup ∧ Fault types source group error := by
  induction requested generalizing before with
  | nil => cases failed
  | cons group rest ih =>
    have later : ∀ {next : Groups}, resolveFrom types source next rest = .error error →
        ∃ group' ∈ group :: rest, group' ≠ .defaultGroup ∧ Fault types source group' error := by
      intro next failed
      obtain ⟨other, inside, fault⟩ := ih failed
      exact ⟨other, List.mem_cons_of_mem _ inside, fault⟩
    unfold resolveFrom at failed
    split at failed
    · exact later failed
    · next named =>
      have here : Fault types source group error → ∃ group' ∈ group :: rest,
          group' ≠ .defaultGroup ∧ Fault types source group' error :=
        fun fault => ⟨group, List.mem_cons_self, named, fault⟩
      rcases bind_eq_error.mp failed with unknown | ⟨info, -, failed⟩
      · exact here (fault_of_require unknown)
      rcases bind_eq_error.mp failed with unanswered | ⟨sequence, -, failed⟩
      · exact here (fault_of_sequenceOf unanswered)
      cases sequence with
      | none => exact later failed
      | some members =>
        rcases bind_eq_error.mp failed with unexpanded | ⟨own, -, failed⟩
        · have ofGroup : expansion types source [] group = .error error := unexpanded
          exact here (fault_of_expansion (List.forall_mem_nil _) ofGroup)
        · exact later failed

/-- With a group come all groups that it leads to. -/
theorem contains_of_reached (known : types.contains group)
    (expanded : expansion types source stack group = .ok groups)
    (reached : Relation.ReflTransGen (Lists types source) group other) : types.contains other := by
  rcases Relation.ReflTransGen.cases_tail reached with same | ⟨upper, reached, lists⟩
  · exact same ▸ known
  · obtain ⟨below, -, own, expanded⟩ := expansion_descends.of_reached ⟨groups, expanded⟩ reached
    obtain ⟨⟨info, known⟩, -⟩ := lists_of_expansion expanded lists
    exact TypeSystem.contains_of_require known

/-- What holds of the answer to a request. -/
structure Resolved (types : TypeSystem) (source : SequenceSource) (requested : List TypeKey)
    (groups : Groups) : Prop where
  /-- All that the requested groups lead to is registered and leads to no circle. -/
  registered : ∀ group ∈ requested, group ≠ .defaultGroup → ∀ other,
    Relation.ReflTransGen (Lists types source) group other → types.contains other
  acyclic : ∀ group ∈ requested, group ≠ .defaultGroup → ∀ other,
    Relation.ReflTransGen (Lists types source) group other →
      ¬ Relation.TransGen (Lists types source) other other
  /-- The plain groups are those that are requested and stand alone, in order. -/
  plain : groups.plain = (requested.filter (standsAlone types source)).eraseDups
  /-- The sequences are the flattenings of the others, in order, without later repetitions. -/
  sequences : ∃ flats,
    List.Forall₂ (Flattens types source) (requested.filter (!standsAlone types source ·)) flats
      ∧ groups.sequences = (flats.map List.eraseDups).eraseDups
  /-- No group of a sequence carries a sequence. -/
  leaves : ∀ sequence ∈ groups.sequences, ∀ leaf ∈ sequence, sequenceOf types source leaf = .ok none

/-- What can be relied on in how a request is answered. -/
structure Answers (types : TypeSystem) (source : SequenceSource) (requested : List TypeKey) :
    Prop where
  /-- Expansions come to an end by themselves: by the steps that they take, not by a bound. -/
  ends : WellFounded (StepsDown (Lists types source))
  recursion : expansion types source = expandStep types source (expansion types source)
  resolved : ∀ groups, resolve types source requested = .ok groups →
    Resolved types source requested groups
  /-- A requested group that leads to a circle is an error. -/
  circular : ∀ group ∈ requested, group ≠ .defaultGroup → ∀ other,
    Relation.ReflTransGen (Lists types source) group other →
      Relation.TransGen (Lists types source) other other →
        ∃ error, resolve types source requested = .error error
  /-- An error is a fault of a requested group.  A group that is met twice is none. -/
  faulty : ∀ error, resolve types source requested = .error error →
    ∃ group ∈ requested, group ≠ .defaultGroup ∧ Fault types source group error

theorem resolved_of_resolve {requested : List TypeKey} {groups : Groups}
    (nonempty : requested ≠ []) (resolved : resolve types source requested = .ok groups) :
    Resolved types source requested groups := by
  rw [resolve, if_neg (by simpa using nonempty)] at resolved
  obtain ⟨each, plain, sequences⟩ := resolveFrom_eq_ok resolved
  have expanded : ∀ group ∈ requested.filter (!standsAlone types source ·),
      ∃ own, expansion types source [] group = .ok own := by
    intro group inside
    obtain ⟨isRequested, together⟩ := List.mem_filter.mp inside
    have named : group ≠ .defaultGroup := by
      rintro rfl
      simp [standsAlone] at together
    exact (each group isRequested named).2
  have flattened : ∀ group ∈ requested.filter (!standsAlone types source ·),
      ∃ flat, Flattens types source group flat
        ∧ (expansion types source [] group).toOption.getD [] = flat.eraseDups := by
    intro group inside
    obtain ⟨own, ofGroup⟩ := expanded group inside
    obtain ⟨flat, flattens, same⟩ := flattens_of_expansion ofGroup
    exact ⟨flat, flattens, by rw [ofGroup]; exact same⟩
  choose! flat flattens same using flattened
  refine ⟨?_, ?_, ?_, ⟨_, List.forall₂_map_right_iff.mpr (List.forall₂_same.mpr flattens), ?_⟩, ?_⟩
  · intro group isRequested named other reached
    obtain ⟨⟨info, known⟩, own, ofGroup⟩ := each group isRequested named
    exact contains_of_reached (TypeSystem.contains_of_require known) ofGroup reached
  · intro group isRequested named other reached
    exact expansion_descends.not_circle (each group isRequested named).2 reached
  · rw [plain, foldl_addOnce_nil]
  · rw [sequences, foldl_addOnce_nil, List.map_map, List.map_congr_left same]
    rfl
  · intro sequence listed leaf inside
    rw [sequences, mem_foldl_addOnce] at listed
    obtain ⟨group, isRequested, rfl⟩ := List.mem_map.mp (listed.resolve_left List.not_mem_nil)
    obtain ⟨own, ofGroup⟩ := expanded group isRequested
    rw [ofGroup] at inside
    exact expand_plain ofGroup leaf inside

/-- **What a request is answered with**, whatever the types are and whatever the source answers. -/
theorem resolve_answers (types : TypeSystem) (source : SequenceSource) {requested : List TypeKey}
    (nonempty : requested ≠ []) : Answers types source requested where
  ends := wellFounded_stepsDown (mem_keys_of_lists types source)
  recursion := expansion_eq
  resolved _ := resolved_of_resolve nonempty
  circular group isRequested named other reached circle := by
    cases resolved : resolve types source requested with
    | error error => exact ⟨error, rfl⟩
    | ok groups =>
      exact absurd circle
        ((resolved_of_resolve nonempty resolved).acyclic group isRequested named other reached)
  faulty error failed := by
    rw [resolve, if_neg (by simpa using nonempty)] at failed
    exact resolveFrom_eq_error failed

end GroupRequest

/-! ### Layers of sequences -/

namespace Layers

def full : TypeKey := ⟨"Full"⟩

def types : TypeSystem := (Ring.types.registerAll [.ofInterface full []]).1

/-- The full sequence lists the ordered one twice, and one of its groups before. -/
def source : SequenceSource := fun group => .ok <|
  if group = full then some [Ring.extra, Ring.ordered, Ring.ordered]
  else if group = Ring.ordered then some [Ring.basic, Ring.extra]
  else none

def requested : List TypeKey := [full, Ring.extra, .defaultGroup, Ring.ordered, Ring.extra, full]

def groups : Groups :=
  ⟨[Ring.extra, .defaultGroup], [[Ring.extra, Ring.basic], [Ring.basic, Ring.extra]]⟩

end Layers

/-- What is met twice is no circle, and is listed where it is met first. -/
theorem resolve_answers_layers :
    GroupRequest.resolve Layers.types Layers.source Layers.requested = .ok Layers.groups
      ∧ GroupRequest.Resolved Layers.types Layers.source Layers.requested Layers.groups := by
  have resolved : GroupRequest.resolve Layers.types Layers.source Layers.requested
      = .ok Layers.groups := eq_ok_of_toOption (by decide +kernel)
  have nonempty : Layers.requested ≠ [] := List.cons_ne_nil _ _
  have answers := GroupRequest.resolve_answers Layers.types Layers.source nonempty
  exact ⟨resolved, answers.resolved Layers.groups resolved⟩

end GraphValidation
