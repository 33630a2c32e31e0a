/-
**Following paths.**

A cascade goes from a bean by a property to a related value, and to one of its parts; the path of
the part names both.  The same path, read back from its text, leads from the root to the part again,
as long as every name and key on the way is legible and every bean is taken for what it is.

* `Setting.Hop` — one step of a cascade; `Hop.Clear` — what it takes to follow it by its text.
* `Setting.Cleared` — the stops that clear hops lead to, with their paths.
* `Cleared.navigate_tracks` — **the written path of such a stop leads to its bean**.
-/
import GraphValidation.Proofs.Spelling

namespace GraphValidation

/-! ### One step of a cascade -/

namespace Setting

/-- How a cascade goes on from a stop: by which property and access, to which value, and to which
part of it. -/
structure Hop (setting : Setting) (stop : Stop) where
  property : MetaProperty
  target : CascadeTarget
  access : Access
  value : Value
  mark : Path.Mark
  element : Value

/-- The texts of keys lead to the entries under a key. -/
structure FindsKey (types : TypeSystem) (declared : TypeRef) (value : Value) (key : MapKey) :
    Prop where
  /-- The text stands between brackets and is read as a key. -/
  legible : Path.Mark.Legible (.key (.entry key))
  /-- The keys of the map have different texts. -/
  distinct : ∀ entries, value = .map entries → (entries.map fun entry => entry.1.text).Nodup
  /-- Where the declared keys are constants of an enum, the key is one of them. -/
  constant : ∀ keyType, declared.mapKey? types = some keyType → types.isEnum keyType.raw = true →
    ∃ constant, key = .enum ⟨keyType.raw, constant⟩

/-- The text of a mark leads to the part of a value; an element without position has none. -/
def FindsPart (types : TypeSystem) (declared : TypeRef) (value : Value) : Path.Mark → Prop
  | .plain => True
  | .element => False
  | .index position => position < Nat.pow 2 64
  | .key (.entry key) => FindsKey types declared value key
  | .key (.written _) => False

variable {setting : Setting} {stop : Stop}

/-- A cascade goes that way. -/
structure Hop.Open (hop : setting.Hop stop) : Prop where
  property : hop.property ∈ stop.metadata.properties
  target : hop.property.cascade = some hop.target
  access : hop.access ∈ hop.property.cascadeAccesses
  read : hop.access.read setting.environment.heap stop.bean = .ok hop.value
  part : (hop.mark, hop.element) ∈ setting.parts hop.value
  members : Engine.isBeanLike setting.environment hop.element = true

/-- The text of a hop leads where the hop leads. -/
structure Hop.Clear (hop : setting.Hop stop) : Prop where
  name : Path.LegibleName hop.property.name
  /-- The property is read in one way, whatever the access. -/
  alike : ∀ access ∈ hop.property.cascadeAccesses,
    access.read setting.environment.heap stop.bean = .ok hop.value
  part : FindsPart setting.environment.types hop.property.declared hop.value hop.mark
  /-- The part carries the metadata of its own type. -/
  own : setting.metadata hop.element.runtimeType
    = setting.metadata (targetType hop.target hop.element)

/-- Where a hop ends, or the reason why it ends nowhere. -/
def Hop.ending (hop : setting.Hop stop) : Except ValidationError Stop :=
  setting.stopAt hop.target ((stop.path.add hop.property.name).markLeaf hop.mark) hop.element

/-- The stops that clear hops lead to from a root. -/
inductive Cleared (setting : Setting) (root : Value) : Stop → Prop
  | start {metadata : MetaBean} : Engine.isBeanLike setting.environment root = true →
    setting.metadata root.runtimeType = .ok metadata → Cleared setting root ⟨root, metadata, .root⟩
  | onward {stop next : Stop} (hop : setting.Hop stop) : Cleared setting root stop → hop.Open →
    hop.Clear → hop.ending = .ok next → Cleared setting root next

/-! ### Parts by their marks -/

theorem Hop.Clear.legible {hop : setting.Hop stop} (clear : hop.Clear) :
    Path.Node.Legible ⟨some hop.property.name, hop.mark⟩ := by
  refine ⟨⟨hop.property.name, rfl, clear.name⟩, ?_⟩
  have part := clear.part
  cases mark : hop.mark with
  | plain => trivial
  | element => trivial
  | index position =>
    rw [mark] at part
    exact part
  | key k =>
    rw [mark] at part
    cases k with
    | entry key => exact part.legible
    | written text => exact part.elim

/-- Where keys have different texts, only one entry has the text of a key. -/
theorem entry_eq_of_text {entries : List (MapKey × Value)} {key other : MapKey}
    {element found : Value} (distinct : (entries.map fun entry => entry.1.text).Nodup)
    (member : (key, element) ∈ entries) (isFound : (other, found) ∈ entries)
    (text : other.text = key.text) : found = element :=
  congrArg Prod.snd (List.inj_on_of_nodup_map distinct isFound member text)

/-- Where keys have different texts, an entry is found by what only entries of its text have. -/
theorem find?_of_text {entries : List (MapKey × Value)} {key : MapKey} {element : Value}
    {keep : MapKey × Value → Bool} (distinct : (entries.map fun entry => entry.1.text).Nodup)
    (member : (key, element) ∈ entries) (own : keep (key, element) = true)
    (texts : ∀ entry, keep entry = true → entry.1.text = key.text) :
    (entries.find? keep).map (·.2) = some element := by
  cases first : entries.find? keep with
  | none => exact absurd own (List.find?_eq_none.mp first _ member)
  | some entry =>
    have inside := List.mem_of_find?_eq_some first
    have text := texts entry (List.find?_some first)
    exact congrArg some (entry_eq_of_text distinct member inside text)

/-- An entry is found under the text of its key. -/
theorem lookupEntry_text {entries : List (MapKey × Value)} {key : MapKey} {element : Value}
    (distinct : (entries.map fun entry => entry.1.text).Nodup)
    (member : (key, element) ∈ entries) :
    Access.lookupEntry entries (.string key.text) none = some element := by
  unfold Access.lookupEntry
  cases exact : entries.lookup (.string key.text) with
  | some found =>
    obtain ⟨before, after, split, -⟩ := List.lookup_eq_some_iff.mp exact
    have inside : (.string key.text, found) ∈ entries := by simp [split]
    simp only [exact]
    exact congrArg some (entry_eq_of_text distinct member inside rfl)
  | none =>
    simp only [exact]
    refine find?_of_text distinct member ?_ fun entry matching => ?_
    · exact beq_self_eq_true _
    · exact eq_of_beq matching

/-- An entry under a constant is found under the name of the constant. -/
theorem lookupEntry_constant {entries : List (MapKey × Value)} {constant : EnumConstant}
    {element : Value} (distinct : (entries.map fun entry => entry.1.text).Nodup)
    (member : (.enum constant, element) ∈ entries) :
    Access.lookupEntry entries (.string constant.constant) (some constant.enumType)
      = some element := by
  unfold Access.lookupEntry
  refine find?_of_text distinct member ?_ ?_
  · simp
  · rintro ⟨key, found⟩ matching
    cases key with
    | enum other =>
      simp only [Bool.and_eq_true, beq_iff_eq] at matching
      exact matching.2
    | string text => simp at matching
    | int value => simp at matching
    | bool value => simp at matching

/-- The text of a key leads to the entry, by the access that it stands for. -/
theorem FindsKey.reads {types : TypeSystem} {declared : TypeRef} {heap : Heap}
    {entries : List (MapKey × Value)} {key : MapKey} {element : Value}
    (finds : FindsKey types declared (.map entries) key) (member : (key, element) ∈ entries) :
    ∃ access, Engine.elementAccess? types declared (.key (.written key.text)) = some access
      ∧ access.read heap (.map entries) = .ok element := by
  have distinct := finds.distinct entries rfl
  have byText : Access.read heap (.entry (.string key.text) none) (.map entries) = .ok element := by
    simp only [Access.read, lookupEntry_text distinct member, Option.getD_some]
  unfold Engine.elementAccess?
  cases keys : declared.mapKey? types with
  | none => exact ⟨_, rfl, byText⟩
  | some keyType =>
    by_cases isEnum : types.isEnum keyType.raw = true
    · obtain ⟨constant, rfl⟩ := finds.constant keyType keys isEnum
      refine ⟨.entry (.string constant) (some keyType.raw), ?_, ?_⟩
      · simp only [isEnum, if_true, MapKey.text]
      · simp only [Access.read, lookupEntry_constant distinct member, Option.getD_some]
    · refine ⟨.entry (.string key.text) none, ?_, byText⟩
      simp only [isEnum, Bool.false_eq_true, if_false]

/-- The text of a mark leads to the part, by the access that it stands for. -/
theorem FindsPart.reads {declared : TypeRef} {value element : Value} {mark : Path.Mark}
    (finds : FindsPart setting.environment.types declared value mark)
    (part : (mark, element) ∈ setting.parts value) :
    mark = .plain ∧ element = value
      ∨ mark.written.isElement = true ∧ ∃ access,
        Engine.elementAccess? setting.environment.types declared mark.written = some access
          ∧ access.read setting.environment.heap value = .ok element := by
  have whole : Engine.elements? setting.environment value = none →
      mark = .plain ∧ element = value := by
    intro none
    simpa [parts, none] using part
  -- A position reads a list and an array alike.
  have indexed : ∀ items, (mark, element) ∈ Engine.withPositions 0 items →
      ∃ position, mark = .index position ∧ Access.readPosition position items = element := by
    intro items member
    obtain ⟨position, rfl, found⟩ := Engine.mem_withPositions.mp member
    refine ⟨position, by rw [Nat.zero_add], ?_⟩
    rw [Access.readPosition, found, Option.getD_some]
  cases value with
  | list items =>
    obtain ⟨position, rfl, found⟩ := indexed items part
    exact .inr ⟨rfl, .position position, rfl, congrArg Except.ok found⟩
  | array items =>
    obtain ⟨position, rfl, found⟩ := indexed items part
    exact .inr ⟨rfl, .position position, rfl, congrArg Except.ok found⟩
  | set items =>
    obtain ⟨item, -, same⟩ := List.mem_map.mp part
    cases same
    exact finds.elim
  | map entries =>
    cases maps : setting.environment.mapsLikeBeans with
    | true => exact .inl (whole (by simp [Engine.elements?, maps]))
    | false =>
      simp only [parts, Engine.elements?, maps, Bool.false_eq_true, if_false] at part
      obtain ⟨⟨key, item⟩, member, same⟩ := List.mem_map.mp part
      cases same
      exact .inr ⟨rfl, FindsKey.reads finds member⟩
  | null => exact .inl (whole rfl)
  | bool _ => exact .inl (whole rfl)
  | int _ => exact .inl (whole rfl)
  | float _ => exact .inl (whole rfl)
  | string _ => exact .inl (whole rfl)
  | enum _ => exact .inl (whole rfl)
  | bean _ => exact .inl (whole rfl)

end Setting

/-! ### Following nodes -/

theorem isNull_of_isBeanLike {environment : Environment} {value : Value}
    (members : Engine.isBeanLike environment value = true) : value.isNull = false := by
  cases value with
  | null => cases members
  | _ => rfl

section Following

variable {setting : Setting} {asked : Site → Prop} {context : Context} {stop : Stop}

theorem readAt_tracks (stands : context.Stands setting asked) {path : Path} {access : Access}
    {holder value : Value} (read : access.read setting.environment.heap holder = .ok value) :
    Tracks (Engine.readAt setting.environment path access holder) context (pure value)
      (Leaves setting asked context.cursor) := by
  let later : Context := { context with journal := .read holder access path :: context.journal }
  have ran : Engine.readAt setting.environment path access holder context = .ok value later := by
    simp only [Engine.readAt, Run.bind_apply, Run.record_apply, read, Run.ofExcept, Run.pure_apply]
    rfl
  exact Tracks.of_ok ran rfl ⟨{ stands with }, rfl⟩

/-- Following nodes goes on where following those before has led. -/
theorem navigate_append (environment : Environment) (bean : Value) (metadata : MetaBean)
    (walked : Path) (first second : List Path.Node) :
    Engine.navigate environment bean metadata walked (first ++ second)
      = (do match ← Engine.navigate environment bean metadata walked first with
          | none => pure none
          | some (bean, metadata, walked) =>
            Engine.navigate environment bean metadata walked second) := by
  induction first generalizing bean metadata walked with
  | nil => rfl
  | cons node rest ih =>
    simp only [List.cons_append, Engine.navigate, bind_assoc]
    refine congrArg _ (funext fun property => congrArg _ (funext fun related => ?_))
    cases related with
    | none => rfl
    | some value =>
      by_cases ended : (value.isNull || !Engine.isBeanLike environment value) = true
      · simp only [ended, if_true]
        rfl
      · simp only [ended, Bool.false_eq_true, if_false, bind_assoc, ih]

theorem namedProperty_of_mem {metadata : MetaBean} {property : MetaProperty} {node : Path.Node}
    (wellFormed : metadata.WellFormed) (member : property ∈ metadata.properties)
    (named : node.name = some property.name) :
    Engine.namedProperty metadata node = pure property := by
  simp only [Engine.namedProperty, named, wellFormed.property?_of_mem member]

namespace Setting.Hop.Clear

variable {hop : setting.Hop stop}

/-- The first access of a cascade reads what all of them read. -/
theorem primary (clear : hop.Clear) (opened : hop.Open) :
    hop.property.primaryAccess.read setting.environment.heap stop.bean = .ok hop.value := by
  have member := opened.access
  have first : hop.property.primaryAccess ∈ hop.property.cascadeAccesses := by
    unfold MetaProperty.primaryAccess
    cases accesses : hop.property.cascadeAccesses with
    | nil => simp [accesses] at member
    | cons access rest => exact List.mem_cons_self
  exact clear.alike _ first

/-- The written node of a clear hop leads to the part that the hop leads to. -/
theorem stepInto_tracks (clear : hop.Clear) (opened : hop.Open)
    (stands : context.Stands setting asked) (walked : Path) :
    Tracks
      (Engine.stepInto setting.environment walked
        (Path.Node.written ⟨some hop.property.name, hop.mark⟩) hop.property stop.bean)
      context (pure (some hop.element)) (Leaves setting asked context.cursor) := by
  unfold Engine.stepInto
  refine Tracks.bind_of_ok (readAt_tracks stands (clear.primary opened)) ?_
  rintro middle ⟨stands, same⟩
  rcases clear.part.reads opened.part with ⟨plain, whole⟩ | ⟨marked, access, found, read⟩
  · rw [whole, plain, ← same]
    exact Tracks.of_ok rfl rfl ⟨stands, rfl⟩
  · have isElement : (Path.Node.written ⟨some hop.property.name, hop.mark⟩).mark.isElement = true :=
      marked
    have names : Engine.elementAccess? setting.environment.types hop.property.declared
        (Path.Node.written ⟨some hop.property.name, hop.mark⟩).mark = some access := found
    simp only [isElement, if_true, names]
    refine Tracks.bind_of_ok (readAt_tracks stands read) ?_
    rintro later ⟨stands, sameLater⟩
    exact Tracks.of_ok rfl rfl ⟨stands, sameLater.trans same⟩

/-- The written node of a clear hop leads where the hop leads. -/
theorem navigate_tracks {next : Stop} (clear : hop.Clear) (opened : hop.Open)
    (wellFormed : stop.metadata.WellFormed) (ending : hop.ending = .ok next)
    (stands : context.Stands setting asked) :
    Tracks
      (Engine.navigate setting.environment stop.bean stop.metadata stop.path.written
        [Path.Node.written ⟨some hop.property.name, hop.mark⟩])
      context (pure (some (next.bean, next.metadata, next.path.written)))
      (Leaves setting asked context.cursor) := by
  obtain ⟨metadata, built, rfl⟩ := Setting.stopAt_eq_ok.mp ending
  have path : (((stop.path.add hop.property.name).markLeaf hop.mark).written : Path)
      = stop.path.written.push (Path.Node.written ⟨some hop.property.name, hop.mark⟩) := by
    rw [Path.markLeaf_add, Path.written_push]
  have named := namedProperty_of_mem wellFormed opened.property
    (show (Path.Node.written ⟨some hop.property.name, hop.mark⟩).name = some hop.property.name
      from rfl)
  have goesOn : (hop.element.isNull || !Engine.isBeanLike setting.environment hop.element)
      = false := by
    rw [opened.members, isNull_of_isBeanLike opened.members]
    rfl
  simp only [Engine.navigate, named, pure_bind, path]
  refine Tracks.bind_of_ok (clear.stepInto_tracks opened stands _) ?_
  rintro middle ⟨stands, same⟩
  have known := metadataOf_tracks stands hop.element.runtimeType
  rw [clear.own, built] at known
  simp only [goesOn, Bool.false_eq_true, if_false]
  refine Tracks.bind_of_ok known ?_
  rintro later ⟨stands, sameLater⟩
  exact Tracks.of_ok rfl rfl ⟨stands, sameLater.trans same⟩

end Setting.Hop.Clear

namespace Setting.Cleared

variable {root : Value}

/-- A bean that clear hops lead to carries the metadata of its own type. -/
theorem own (cleared : setting.Cleared root stop) :
    setting.metadata stop.bean.runtimeType = .ok stop.metadata := by
  cases cleared with
  | start _ built => exact built
  | onward hop _ _ clear ending =>
    obtain ⟨metadata, built, rfl⟩ := Setting.stopAt_eq_ok.mp ending
    exact clear.own.trans built

theorem legible (cleared : setting.Cleared root stop) : ∀ node ∈ stop.path.steps, node.Legible := by
  induction cleared with
  | start => exact nofun
  | onward hop _ _ clear ending ih =>
    obtain ⟨metadata, -, rfl⟩ := Setting.stopAt_eq_ok.mp ending
    rw [Path.steps_markLeaf_add]
    intro node member
    rcases List.mem_append.mp member with before | isLast
    · exact ih node before
    · rw [List.mem_singleton.mp isLast]
      exact clear.legible

/-- **The written path of a stop leads to its bean.**  By induction on the hops: what follows the
nodes of the path before goes on with the last node. -/
theorem navigate_tracks (wellFormed : ∀ type metadata, setting.metadata type = .ok metadata →
      metadata.WellFormed) (cleared : setting.Cleared root stop) {metadata : MetaBean}
    (built : setting.metadata root.runtimeType = .ok metadata)
    (stands : context.Stands setting asked) :
    Tracks
      (Engine.navigate setting.environment root metadata .root
        (stop.path.steps.map Path.Node.written))
      context (pure (some (stop.bean, stop.metadata, stop.path.written)))
      (Leaves setting asked context.cursor) := by
  induction cleared with
  | start _ builtRoot =>
    rw [builtRoot] at built
    cases built
    exact Tracks.of_ok rfl rfl ⟨stands, rfl⟩
  | onward hop cleared opened clear ending ih =>
    obtain ⟨next, builtNext, rfl⟩ := Setting.stopAt_eq_ok.mp ending
    rw [Path.steps_markLeaf_add, List.map_append, navigate_append]
    refine Tracks.bind_of_ok ih ?_
    rintro middle ⟨stands, same⟩
    rw [← same]
    exact clear.navigate_tracks opened (wellFormed _ _ cleared.own) ending stands

end Setting.Cleared

end Following

end GraphValidation
