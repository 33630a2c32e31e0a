/-
**The levels of a graph suffice.**

Going through a graph comes to an end on its own: each level enters a bean of the heap that the pass
has not come to, and from a bean that is not in the heap nothing can be read.  So it does not matter
how many more levels there are, and what would be done below them.

* `Setting.unseen` — how many beans of the heap a pass has not come to.
* `Setting.tourOver_eq` — enough levels give one tour, whatever lies below them.
* `validateOver_shows_on_beans` — **more levels, and any step below them, show the same run**.
-/
import GraphValidation.Proofs.Calls
import GraphValidation.Proofs.Stacking

namespace GraphValidation

namespace Setting

variable {setting : Setting}

/-- How many beans of the heap a pass has not come to. -/
def unseen (setting : Setting) (seen : List String) : Nat :=
  setting.environment.heap.beans.countP fun members => !seen.contains members.ref.id

theorem unseen_append_le (more seen : List String) :
    setting.unseen (more ++ seen) ≤ setting.unseen seen := by
  refine List.countP_mono_left fun members _ new => ?_
  simp only [List.contains_append, Bool.not_or, Bool.and_eq_true] at new
  exact new.2

theorem unseen_cons_lt {seen : List String} {ref : BeanRef} {members : BeanMembers}
    (found : setting.environment.heap.members? ref = some members) (new : ref.id ∉ seen) :
    setting.unseen (ref.id :: seen) < setting.unseen seen := by
  have same : members.ref.id = ref.id := by
    simpa [BeanRef.same] using List.find?_some found
  refine countP_lt_of_mem (fun other unseen => ?_) (List.mem_of_find?_eq_some found) ?_ ?_
  · simp only [List.contains_cons, Bool.not_or, Bool.and_eq_true] at unseen
    exact unseen.2
  · simpa [same] using new
  · simp [same]

theorem length_le_heapWeight (heap : Heap) : heap.beans.length ≤ Engine.heapWeight heap := by
  have counted : ∀ (beans : List BeanMembers) (total : Nat),
      total + beans.length ≤ beans.foldl (fun total members =>
        total + Engine.weightAll (members.fields.map (·.2))
          + Engine.weightAll (members.getters.map (·.2)) + 1) total := by
    intro beans
    induction beans with
    | nil => exact fun total => Nat.le_refl total
    | cons members rest ih =>
      intro total
      refine Nat.le_trans ?_ (ih _)
      simp only [List.length_cons]
      omega
  have whole := counted heap.beans 0
  rw [Nat.zero_add] at whole
  exact whole

/-- There are enough levels for all beans of the heap. -/
theorem unseen_nil_le_levels (root : Value) :
    setting.unseen [] + 2 ≤ Engine.levels setting.environment root := by
  have counted : setting.unseen [] ≤ setting.environment.heap.beans.length := List.countP_le_length
  have weighed := length_le_heapWeight setting.environment.heap
  unfold Engine.levels
  omega

/-! ### Where nothing can be read -/

/-- From a value that is neither a bean of the heap nor a container nothing can be read. -/
theorem read_ne_ok {bean value : Value} (off : setting.environment.mapsLikeBeans = false)
    (whole : Engine.elements? setting.environment bean = none)
    (missing : ∀ ref, bean = .bean ref → setting.environment.heap.members? ref = none)
    (access : Access) : access.read setting.environment.heap bean ≠ .ok value := by
  cases bean with
  | bean ref =>
    have none := missing ref rfl
    cases access <;> simp [Access.read, Access.readProperty, Heap.field?, Heap.getter?, none]
  | list items => cases whole
  | set items => cases whole
  | array items => cases whole
  | map entries => simp [Engine.elements?, off] at whole
  | null => cases access <;> simp [Access.read, Access.readProperty]
  | bool _ => cases access <;> simp [Access.read, Access.readProperty]
  | int _ => cases access <;> simp [Access.read, Access.readProperty]
  | float _ => cases access <;> simp [Access.read, Access.readProperty]
  | string _ => cases access <;> simp [Access.read, Access.readProperty]
  | enum _ => cases access <;> simp [Access.read, Access.readProperty]

theorem not_mem_onward {stop : Stop} (off : setting.environment.mapsLikeBeans = false)
    (whole : Engine.elements? setting.environment stop.bean = none)
    (missing : ∀ ref, stop.bean = .bean ref → setting.environment.heap.members? ref = none)
    (next : Stop) : .ok next ∉ setting.onward stop := by
  intro leads
  obtain ⟨way, opened, -⟩ := (mem_onward off).mp leads
  exact read_ne_ok off whole missing way.access opened.read

/-- Without stops to go through, a walk does not depend on the tour. -/
theorem walk_of_errors {tour other : Tour} {starts : List (Except ValidationError Stop)}
    (errors : ∀ stop, .ok stop ∉ starts) (seen : List String) :
    walk tour seen starts = walk other seen starts := by
  induction starts with
  | nil => rfl
  | cons start rest ih =>
    have later := ih fun stop member => errors stop (List.mem_cons_of_mem _ member)
    cases start with
    | error error => simp only [walk, later]
    | ok stop => exact absurd List.mem_cons_self (errors stop)

/-! ### Enough levels -/

/-- Two tours that agree where at most so many beans are unseen give one walk there. -/
theorem walk_eq {tour other : Tour} {fine : Stop → Prop} {bound : Nat} (fresh : Fresh other)
    (agree : ∀ seen stop, setting.unseen seen ≤ bound → fine stop → tour seen stop = other seen stop)
    {starts : List (Except ValidationError Stop)} (fines : ∀ stop, .ok stop ∈ starts → fine stop)
    (seen : List String) (within : setting.unseen seen ≤ bound) :
    walk tour seen starts = walk other seen starts := by
  induction starts generalizing seen with
  | nil => rfl
  | cons start rest ih =>
    have later := ih fun stop member => fines stop (List.mem_cons_of_mem _ member)
    cases start with
    | error error => simp only [walk, later seen within]
    | ok stop =>
      have less : setting.unseen (other seen stop).1 ≤ bound := by
        rw [fresh.remembers]
        exact Nat.le_trans (unseen_append_le _ seen) within
      have same := agree seen stop within (fines stop List.mem_cons_self)
      simp only [walk, same, later _ less]

/-- **Enough levels give one tour**, whatever lies below them. -/
theorem tourOver_eq (off : setting.environment.mapsLikeBeans = false) (bottom : Tour)
    {levels more : Nat} {seen : List String} {stop : Stop}
    (whole : Engine.elements? setting.environment stop.bean = none)
    (enough : setting.unseen seen + 2 ≤ levels) (enoughMore : setting.unseen seen + 2 ≤ more) :
    setting.tourOver bottom levels seen stop = setting.tour more seen stop := by
  -- The measure is the number of unseen beans: a bean of the heap that is new takes one level and is
  -- unseen no more, and all other stops lead nowhere.
  induction levels generalizing more seen stop with
  | zero => omega
  | succ levels ih =>
    obtain ⟨more, rfl⟩ : ∃ fewer, more = fewer + 1 := ⟨more - 1, by omega⟩
    unfold tour
    cases isBean : stop.bean.bean? with
    | none =>
      have nowhere := not_mem_onward off whole fun ref same => by
        rw [same] at isBean
        cases isBean
      rw [tourOver_of_other _ isBean, tourOver_of_other _ isBean, walk_of_errors nowhere]
    | some ref =>
      by_cases known : ref.id ∈ seen
      · rw [tourOver_of_known _ isBean known, tourOver_of_known _ isBean known]
      · rw [tourOver_of_new _ isBean known, tourOver_of_new _ isBean known]
        cases found : setting.environment.heap.members? ref with
        | none =>
          have nowhere := not_mem_onward off whole fun other same => by
            rw [same] at isBean
            cases isBean
            exact found
          rw [walk_of_errors nowhere]
        | some members =>
          have less := unseen_cons_lt found known
          have agree : ∀ later next, setting.unseen later ≤ setting.unseen (ref.id :: seen) →
              Engine.elements? setting.environment next.bean = none →
                setting.tourOver bottom levels later next = setting.tour more later next :=
            fun later next within whole => ih whole (by omega) (by omega)
          have fine : ∀ next, .ok next ∈ setting.onward stop →
              Engine.elements? setting.environment next.bean = none := by
            intro next onward
            obtain ⟨way, -, ending⟩ := (mem_onward off).mp onward
            obtain ⟨_, -, rfl⟩ := stopAt_eq_ok.mp ending
            rfl
          have same := walk_eq (setting.fresh_tourOver fresh_nowhere more) agree fine (ref.id :: seen)
            (Nat.le_refl _)
          rw [same]

end Setting

section Planned

variable {validator : Validator} {heap : Heap} {root : Value} {requested : List TypeKey}
  {plan : Plan}

/-- The starts of a plan are no containers, and not null. -/
theorem starts_whole (off : validator.mapsLikeBeans = false)
    (planned : validator.plan heap root requested = .ok plan) :
    ∀ stop, .ok stop ∈ plan.setting.starts plan.root plan.metadata →
      Engine.elements? plan.setting.environment stop.bean = none ∧ stop.bean.isNull = false := by
  obtain ⟨metadata, groups, notNull, known, -, rfl⟩ := Validator.plan_eq_ok planned
  intro stop start
  rcases (Setting.mem_starts off).mp start with ⟨own, isOwn, rfl⟩ | ⟨-, mark, ref, -, at_stop⟩
  · cases isOwn
    exact ⟨(rootMetadata?_eq_some known).1, notNull⟩
  · obtain ⟨_, -, rfl⟩ := Setting.stopAt_eq_ok.mp at_stop.symm
    exact ⟨rfl, rfl⟩

/-- **With enough levels a pass comes to the stops of its plan**, whatever lies below them. -/
theorem stops_eq_of_levels (off : validator.mapsLikeBeans = false)
    (planned : validator.plan heap root requested = .ok plan) (below : Tour) {levels : Nat}
    (enough : Engine.levels (validator.environment heap) root ≤ levels) :
    (Setting.walk (plan.setting.tourOver below levels) []
      (plan.setting.starts plan.root plan.metadata)).2 = plan.stops := by
  have wholes := starts_whole off planned
  obtain ⟨metadata, groups, -, known, -, rfl⟩ := Validator.plan_eq_ok planned
  let setting := validator.setting heap root metadata
  have bound : setting.unseen [] + 2 ≤ Engine.levels setting.environment root :=
    setting.unseen_nil_le_levels root
  have enough : Engine.levels setting.environment root ≤ levels := enough
  have agree : ∀ seen stop, setting.unseen seen ≤ setting.unseen [] →
      Engine.elements? setting.environment stop.bean = none →
        setting.tourOver below levels seen stop
          = setting.tour (Engine.levels setting.environment root) seen stop :=
    fun seen stop within whole => Setting.tourOver_eq off below whole (by omega) (by omega)
  exact congrArg Prod.snd (Setting.walk_eq
    (setting.fresh_tourOver Setting.fresh_nowhere _) agree (fun stop start => (wholes stop start).1)
    [] (Nat.le_refl _))

/-- **More levels, and any step below them, show the same run**: a validation comes to an end on its
own. -/
theorem validateOver_shows_on_beans (off : validator.mapsLikeBeans = false)
    (planned : validator.plan heap root requested = .ok plan) {levels : Nat}
    (enough : Engine.levels (validator.environment heap) root ≤ levels)
    (bottom : Value → MetaBean → Run Unit) :
    (validator.validateOver levels bottom heap root requested).Shows plan.run := by
  have maps : plan.setting.environment.mapsLikeBeans = false := by
    rw [environment_of_planned planned]
    exact off
  have wellFormed := stops_wellFormed planned
  -- A tour that would come to null conducts any step: no pass comes to null.
  let nowhere : Stop := ⟨.null, .blank .object, .root⟩
  have conducts : plan.setting.Conducts (plan.setting.PropertySites plan.stops) bottom
      fun seen _ => (seen, [.ok nowhere]) := by
    intro stop cursor _ context _ asks
    exfalso
    obtain ⟨real, name, member, same⟩ := (asks nowhere (by simp [Setting.walk_ok])).1 ""
    have notNull : real.bean.isNull = false := by
      refine Setting.itinerary_all (fun stop start => (starts_whole off planned stop start).2)
        (fun stop _ next onward => ?_) real member
      obtain ⟨way, -, ending⟩ := (Setting.mem_onward maps).mp onward
      obtain ⟨_, -, rfl⟩ := Setting.stopAt_eq_ok.mp ending
      rfl
    have isNull : real.bean = .null := (congrArg Site.bean same).symm
    rw [isNull] at notNull
    cases notNull
  exact validateOver_shows planned levels (Setting.consistent_at_stops maps) conducts
    (stops_eq_of_levels off planned _ enough) fun stop member =>
      Setting.asksWithin_propertySites (wellFormed stop member) member

end Planned

end GraphValidation
