/-
**The written form of a path is read back.**

Names without dots, brackets and blanks stand in an expression as they are, and so do keys without
closing brackets between their brackets.  So an expression that is written from them falls into the
same nodes again.  A key comes back as its text: what kind of key it was is lost, and where its text
is a number it comes back as a position.

* `IsPosition`, `readIndex?_eq_some` — the texts that are read as a position.
* `Path.Node.Legible` — nodes that can be read back.
* `Path.written` — a path with the texts of its keys in place of the keys.
* `Path.readFrom_node`, `Path.readFrom_joinNodes` — one node is read, and all that follow.
* `Path.parse_text` — **the written form of a path of legible nodes is read as that path**.
-/
import GraphValidation.Path.Reader
import GraphValidation.Proofs.Location

namespace GraphValidation

/-! ### Positions -/

/-- The decimal digits of a number that fits 64 bits. -/
structure IsNumeral (digits : List Char) (position : Nat) : Prop where
  nonempty : digits ≠ []
  isDigit : ∀ c ∈ digits, c.isDigit = true
  value : Nat.ofDigitChars 10 digits 0 = position
  fits : position < Nat.pow 2 64

/-- The decimal digits of a number that fits 64 bits, behind a plus sign or without one. -/
def IsPosition (content : List Char) (position : Nat) : Prop :=
  IsNumeral content position ∨ ∃ digits, content = '+' :: digits ∧ IsNumeral digits position

theorem IsPosition.ne_nil {content : List Char} {position : Nat}
    (number : IsPosition content position) : content ≠ [] := by
  rcases number with numeral | ⟨_, rfl, -⟩
  · exact numeral.nonempty
  · exact List.cons_ne_nil _ _

theorem IsPosition.fits {content : List Char} {position : Nat}
    (number : IsPosition content position) : position < Nat.pow 2 64 := by
  rcases number with numeral | ⟨_, -, numeral⟩ <;> exact numeral.fits

theorem digitsValue_eq (digits : List Char) :
    digitsValue digits = Nat.ofDigitChars 10 digits 0 := by
  simp only [digitsValue, Nat.ofDigitChars, Nat.mul_comm]

/-- The check of digits is the one of a numeral. -/
theorem isNumeral_iff {digits : List Char} {position : Nat} :
    (if digits.isEmpty || !digits.all Char.isDigit then none
      else if digitsValue digits < Nat.pow 2 64 then some (digitsValue digits) else none)
        = some position ↔ IsNumeral digits position := by
  have guard : (digits.isEmpty || !digits.all Char.isDigit) = true
      ↔ digits = [] ∨ ¬ ∀ c ∈ digits, c.isDigit = true := by
    simp [List.isEmpty_iff]
  rw [digitsValue_eq]
  constructor
  · intro found
    split at found
    · cases found
    · rename_i passes
      rw [guard, not_or, not_not] at passes
      split at found
      · rename_i fits
        cases found
        exact ⟨passes.1, passes.2, rfl, fits⟩
      · cases found
  · rintro ⟨nonempty, isDigit, rfl, fits⟩
    rw [if_neg, if_pos fits]
    rw [guard, not_or, not_not]
    exact ⟨nonempty, isDigit⟩

/-- What is read as a position is the number that stands there. -/
theorem readIndex?_eq_some {content : List Char} {position : Nat} :
    readIndex? content = some position ↔ IsPosition content position := by
  unfold readIndex?
  split
  · rename_i rest
    rw [isNumeral_iff]
    constructor
    · exact fun numeral => .inr ⟨rest, rfl, numeral⟩
    · rintro (numeral | ⟨digits, same, numeral⟩)
      · exact absurd (numeral.isDigit '+' List.mem_cons_self) (by decide)
      · cases same
        exact numeral
  · rename_i unsigned
    rw [isNumeral_iff]
    constructor
    · exact .inl
    · rintro (numeral | ⟨digits, rfl, -⟩)
      · exact numeral
      · exact absurd rfl (unsigned digits)

/-- The digits of a number are read as that number. -/
theorem readIndex?_toString {position : Nat} (fits : position < Nat.pow 2 64) :
    readIndex? (toString position).toList = some position := by
  have digits : (toString position).toList = Nat.toDigits 10 position := Nat.toList_repr
  have numeral : IsNumeral (Nat.toDigits 10 position) position :=
    { nonempty := Nat.toDigits_ne_nil
      isDigit := fun c member => Nat.isDigit_of_mem_toDigits (by decide) (by decide) member
      value := Nat.ofDigitChars_toDigits (by decide) (by decide)
      fits := fits }
  rw [digits, readIndex?_eq_some]
  exact .inl numeral

/-! ### Blanks -/

namespace Text

/-- What neither starts nor ends with a blank is left as it is. -/
theorem trim_eq_self {text : List Char} (start : ∀ c, text.head? = some c → isBlank c = false)
    (ending : ∀ c, text.getLast? = some c → isBlank c = false) : trim text = text := by
  have untouched : ∀ chars : List Char, (∀ c, chars.head? = some c → isBlank c = false) →
      chars.dropWhile isBlank = chars := by
    intro chars solid
    cases chars with
    | nil => rfl
    | cons c rest => rw [List.dropWhile_cons_of_neg (by simp [solid c rfl])]
  have back : text.reverse.dropWhile isBlank = text.reverse := by
    refine untouched text.reverse fun c isHead => ending c ?_
    rw [← isHead, List.head?_reverse]
  rw [trim, untouched text start, back, List.reverse_reverse]

end Text

namespace Path

/-! ### Legible nodes -/

/-- A name that stands in an expression as it is. -/
structure LegibleName (name : String) : Prop where
  nonempty : name ≠ ""
  chars : ∀ c ∈ name.toList, c ≠ '.' ∧ c ≠ '[' ∧ c ≠ ']' ∧ Text.isBlank c = false

instance (name : String) : Decidable (LegibleName name) :=
  decidable_of_iff
    (name ≠ "" ∧ name.toList.all fun c =>
      c ≠ '.' ∧ c ≠ '[' ∧ c ≠ ']' ∧ Text.isBlank c = false)
    ⟨fun ⟨nonempty, plain⟩ => ⟨nonempty, by simpa using plain⟩,
     fun ⟨nonempty, chars⟩ => ⟨nonempty, by simpa using chars⟩⟩

/-- A mark that is read back: a position fits 64 bits, and the text of a key is neither empty nor a
number. -/
def Mark.Legible : Mark → Prop
  | plain => True
  | element => True
  | index position => position < Nat.pow 2 64
  | key k => k.text ≠ "" ∧ ']' ∉ k.text.toList ∧ readIndex? k.text.toList = none

/-- A node that is read back. -/
structure Node.Legible (node : Node) : Prop where
  name : ∃ name, node.name = some name ∧ LegibleName name
  mark : node.mark.Legible

theorem Node.Legible.not_placeholder {node : Node} (legible : node.Legible) :
    node.isPlaceholder = false := by
  obtain ⟨name, named, -⟩ := legible.name
  simp [isPlaceholder, named]

/-- A mark with the text of its key. -/
def Mark.written : Mark → Mark
  | key k => key (.written k.text)
  | mark => mark

def Node.written (node : Node) : Node := ⟨node.name, node.mark.written⟩

/-- A path with the texts of its keys in place of the keys. -/
def written (path : Path) : Path := ⟨path.leaf.written, path.above.map Node.written⟩

theorem Node.isPlaceholder_written (node : Node) :
    node.written.isPlaceholder = node.isPlaceholder := by
  obtain ⟨name, mark⟩ := node
  cases mark <;> rfl

theorem isRoot_written (path : Path) : path.written.isRoot = path.isRoot := by
  simp [isRoot, written, Node.isPlaceholder_written]

theorem written_push (path : Path) (node : Node) :
    (path.push node).written = path.written.push node.written := by
  unfold push
  rw [isRoot_written]
  split <;> rfl

theorem written_add (path : Path) (name : String) :
    (path.add name).written = path.written.add name := path.written_push (.named name)

/-- The leaf of a property is marked by adding a marked node. -/
theorem markLeaf_add (path : Path) (name : String) (mark : Mark) :
    (path.add name).markLeaf mark = path.push ⟨some name, mark⟩ := by
  unfold add push
  split <;> rfl

/-! ### Reading -/

section Reading

variable (path : Path)

/-- The characters of a name are read one by one. -/
theorem readFrom_name {chars : List Char} (plain : ∀ c ∈ chars, c ≠ '.' ∧ c ≠ '[' ∧ c ≠ ']')
    (reversed tail : List Char) (offset : Nat) :
    ∃ next, readFrom path (.name reversed) offset (chars ++ tail)
      = readFrom path (.name (chars.reverse ++ reversed)) next tail := by
  induction chars generalizing reversed offset with
  | nil => exact ⟨offset, rfl⟩
  | cons c rest ih =>
    obtain ⟨dot, opens, closes⟩ := plain c List.mem_cons_self
    have later := fun c member => plain c (List.mem_cons_of_mem _ member)
    obtain ⟨next, reads⟩ := ih later (c :: reversed) (offset + c.utf8Size)
    refine ⟨next, ?_⟩
    rw [List.cons_append, readFrom, if_neg dot, if_neg opens, if_neg closes, reads,
      List.reverse_cons, List.append_assoc, List.singleton_append]

/-- A name is read from its first character on. -/
theorem readFrom_start {name : List Char} (nonempty : name ≠ [])
    (plain : ∀ c ∈ name, c ≠ '.' ∧ c ≠ '[' ∧ c ≠ ']') (tail : List Char) (offset : Nat) :
    ∃ next, readFrom path .start offset (name ++ tail)
      = readFrom path (.name name.reverse) next tail := by
  cases name with
  | nil => exact absurd rfl nonempty
  | cons c rest =>
    obtain ⟨dot, opens, closes⟩ := plain c List.mem_cons_self
    have later := fun c member => plain c (List.mem_cons_of_mem _ member)
    obtain ⟨next, reads⟩ := readFrom_name path later [c] tail (offset + c.utf8Size)
    refine ⟨next, ?_⟩
    rw [List.cons_append, readFrom, if_neg dot, if_neg opens, if_neg closes, reads,
      List.reverse_cons]

theorem addReversed_reverse (name : List Char) :
    path.addReversed name.reverse = path.add (String.ofList name) := by
  rw [addReversed, List.reverse_reverse]

/-- The characters between brackets are read one by one. -/
theorem readFrom_content {chars : List Char} (inside : ']' ∉ chars) (reversed tail : List Char)
    (opened offset : Nat) :
    ∃ next, readFrom path (.content opened reversed) offset (chars ++ tail)
      = readFrom path (.content opened (chars.reverse ++ reversed)) next tail := by
  induction chars generalizing reversed offset with
  | nil => exact ⟨offset, rfl⟩
  | cons c rest ih =>
    rw [List.mem_cons, not_or] at inside
    obtain ⟨next, reads⟩ := ih inside.2 (c :: reversed) (offset + c.utf8Size)
    refine ⟨next, ?_⟩
    rw [List.cons_append, readFrom, if_neg (Ne.symm inside.1), reads, List.reverse_cons,
      List.append_assoc, List.singleton_append]

/-- Brackets mark the node of the name before them. -/
theorem readFrom_brackets {chars : List Char} (inside : ']' ∉ chars) (reversed tail : List Char)
    (offset : Nat) :
    ∃ next, readFrom path (.name reversed) offset ('[' :: chars ++ ']' :: tail)
      = readFrom ((path.addReversed reversed).markLeaf (markOfContent chars))
        .closed next tail := by
  obtain ⟨next, reads⟩ := readFrom_content (path.addReversed reversed) inside []
    (']' :: tail) offset (offset + '['.utf8Size)
  refine ⟨next + ']'.utf8Size, ?_⟩
  rw [List.cons_append, readFrom, if_neg (by decide), if_pos rfl, reads, readFrom, if_pos rfl,
    List.append_nil, List.reverse_reverse]

/-- After a node comes nothing, or a dot and the next node. -/
def Continues (tail : List Char) : Prop := tail = [] ∨ ∃ rest, tail = '.' :: rest

/-- At its end a name without brackets is a node. -/
theorem readFrom_named {tail : List Char} (continues : Continues tail) (reversed : List Char)
    (offset : Nat) :
    readFrom path (.name reversed) offset tail
      = readFrom (path.addReversed reversed) .closed offset tail := by
  rcases continues with rfl | ⟨rest, rfl⟩
  · rfl
  · simp [readFrom]

/-- Brackets may hold the digits of a number, which are read as that position. -/
theorem brackets_of_position {position : Nat} (fits : position < Nat.pow 2 64) :
    ']' ∉ (toString position).toList ∧ markOfContent (toString position).toList = .index position := by
  have digits : (toString position).toList = Nat.toDigits 10 position := Nat.toList_repr
  constructor
  · intro closes
    rw [digits] at closes
    exact absurd (Nat.isDigit_of_mem_toDigits (by decide) (by decide) closes) (by decide)
  · have nonempty : (toString position).toList.isEmpty = false := by
      rw [digits, List.isEmpty_eq_false_iff]
      exact Nat.toDigits_ne_nil
    simp only [markOfContent, nonempty, Bool.false_eq_true, if_false, readIndex?_toString fits]

/-- A marked node is written with brackets, and what they hold is read as the mark. -/
theorem Mark.Legible.brackets {mark : Mark} (legible : mark.Legible) (marked : mark ≠ .plain) :
    ∃ content, mark.text.toList = '[' :: content ++ [']'] ∧ ']' ∉ content
      ∧ markOfContent content = mark.written := by
  cases mark with
  | plain => exact absurd rfl marked
  | element => exact ⟨[], rfl, by simp, rfl⟩
  | index position =>
    refine ⟨(toString position).toList, ?_, brackets_of_position legible⟩
    simp [Mark.text]
  | key k =>
    obtain ⟨nonempty, inside, noIndex⟩ := legible
    refine ⟨k.text.toList, by simp [Mark.text], inside, ?_⟩
    have nonempty : k.text.toList.isEmpty = false := by simpa using nonempty
    simp only [markOfContent, nonempty, Bool.false_eq_true, if_false, noIndex, Mark.written,
      String.ofList_toList]

/-- A legible node is read at its written form. -/
theorem readFrom_node {node : Node} (legible : node.Legible) {tail : List Char}
    (continues : Continues tail) (offset : Nat) :
    ∃ next, readFrom path .start offset (node.text.toList ++ tail)
      = readFrom (path.push node.written) .closed next tail := by
  obtain ⟨name, named, isLegible⟩ := legible.name
  have plain : ∀ c ∈ name.toList, c ≠ '.' ∧ c ≠ '[' ∧ c ≠ ']' := by
    intro c member
    obtain ⟨dot, opens, closes, -⟩ := isLegible.chars c member
    exact ⟨dot, opens, closes⟩
  have text : node.text.toList = name.toList ++ node.mark.text.toList := by
    simp [Node.text, named]
  have nonempty : name.toList ≠ [] := fun empty =>
    isLegible.nonempty (String.toList_eq_nil_iff.mp empty)
  have added : path.addReversed name.toList.reverse = path.add name := by
    rw [addReversed_reverse, String.ofList_toList]
  rw [text, List.append_assoc]
  obtain ⟨next, reads⟩ :=
    readFrom_start path nonempty plain (node.mark.text.toList ++ tail) offset
  by_cases unmarked : node.mark = .plain
  · have whole : node.written = .named name := by
      rw [Node.written, named, unmarked]
      rfl
    have empty : node.mark.text.toList = [] := by
      rw [unmarked]
      rfl
    refine ⟨next, ?_⟩
    rw [reads, empty, List.nil_append, readFrom_named path continues, added, whole]
    rfl
  · obtain ⟨content, brackets, inside, mark⟩ := legible.mark.brackets unmarked
    obtain ⟨last, readsBrackets⟩ := readFrom_brackets path inside name.toList.reverse tail next
    have shape : node.mark.text.toList ++ tail = '[' :: content ++ ']' :: tail := by
      rw [brackets, List.append_assoc, List.singleton_append]
    refine ⟨last, ?_⟩
    rw [reads, shape, readsBrackets, added, markLeaf_add, mark, Node.written, named]

/-- What is written after a node continues it. -/
theorem continues_joinNodes {nodes : List Node} (legible : ∀ node ∈ nodes, node.Legible) :
    Continues (joinNodes false nodes).toList := by
  cases nodes with
  | nil => exact .inl rfl
  | cons node rest =>
    have first := legible node List.mem_cons_self
    obtain ⟨name, named, -⟩ := first.name
    refine .inr ⟨(node.text ++ joinNodes false rest).toList, ?_⟩
    simp [joinNodes, first.not_placeholder, named]

/-- Legible nodes are read one after the other. -/
theorem readFrom_joinNodes {nodes : List Node} (legible : ∀ node ∈ nodes, node.Legible)
    (offset : Nat) :
    readFrom path .closed offset (joinNodes false nodes).toList
      = .ok ((nodes.map Node.written).foldl push path) := by
  induction nodes generalizing path offset with
  | nil => rfl
  | cons node rest ih =>
    have first := legible node List.mem_cons_self
    have later := fun node member => legible node (List.mem_cons_of_mem _ member)
    obtain ⟨name, named, -⟩ := first.name
    have text : (joinNodes false (node :: rest)).toList
        = '.' :: (node.text.toList ++ (joinNodes false rest).toList) := by
      simp [joinNodes, first.not_placeholder, named]
    obtain ⟨next, reads⟩ :=
      readFrom_node path first (continues_joinNodes later) (offset + '.'.utf8Size)
    rw [text, readFrom, if_pos rfl, reads]
    exact ih (path.push node.written) later next

end Reading

/-! ### Whole paths -/

/-- Adding the nodes of a path one by one gives the path. -/
theorem foldl_push_nodes {path : Path} (real : ∀ node ∈ path.nodes, node.isPlaceholder = false) :
    path.nodes.foldl push root = path := by
  obtain ⟨leaf, above⟩ := path
  induction above generalizing leaf with
  | nil => rfl
  | cons parent above ih =>
    have split : nodes ⟨leaf, parent :: above⟩ = nodes ⟨parent, above⟩ ++ [leaf] := by
      simp [nodes]
    have realParent : ∀ node ∈ nodes ⟨parent, above⟩, node.isPlaceholder = false := by
      intro node member
      exact real node (split ▸ List.mem_append_left _ member)
    have below : isRoot ⟨parent, above⟩ = false := by
      have isReal := realParent parent (by simp [nodes])
      simp [isRoot, isReal]
    rw [split, List.foldl_append, ih parent realParent]
    simp [push, below]

/-- The written form of a legible node neither starts nor ends with a blank. -/
theorem Node.Legible.solid {node : Node} (legible : node.Legible) :
    (∃ c rest, node.text.toList = c :: rest ∧ Text.isBlank c = false)
      ∧ ∀ c, node.text.toList.getLast? = some c → Text.isBlank c = false := by
  obtain ⟨name, named, isLegible⟩ := legible.name
  have text : node.text.toList = name.toList ++ node.mark.text.toList := by
    simp [Node.text, named]
  have solid : ∀ c ∈ name.toList, Text.isBlank c = false :=
    fun c member => (isLegible.chars c member).2.2.2
  rw [text]
  constructor
  · cases chars : name.toList with
    | nil => exact absurd (String.toList_eq_nil_iff.mp chars) isLegible.nonempty
    | cons c rest => exact ⟨c, _, rfl, solid c (by simp [chars])⟩
  · intro c isLast
    rw [List.getLast?_append] at isLast
    by_cases unmarked : node.mark = .plain
    · have empty : node.mark.text.toList = [] := by
        rw [unmarked]
        rfl
      rw [empty, List.getLast?_nil, Option.none_or] at isLast
      exact solid c (List.mem_of_getLast? isLast)
    · obtain ⟨content, brackets, -⟩ := legible.mark.brackets unmarked
      rw [brackets, List.getLast?_concat, Option.some_or] at isLast
      cases isLast
      decide

theorem joinNodes_solid {nodes : List Node} (legible : ∀ node ∈ nodes, node.Legible)
    (first : Bool) :
    ∀ c, (joinNodes first nodes).toList.getLast? = some c → Text.isBlank c = false := by
  induction nodes generalizing first with
  | nil => simp [joinNodes]
  | cons node rest ih =>
    have here := legible node List.mem_cons_self
    have later := ih (fun node member => legible node (List.mem_cons_of_mem _ member)) false
    obtain ⟨⟨start, chars, shape, -⟩, ending⟩ := here.solid
    intro c isLast
    simp only [joinNodes, here.not_placeholder, Bool.false_eq_true, if_false, String.toList_append,
      List.getLast?_append] at isLast
    cases ends : (joinNodes false rest).toList.getLast? with
    | some other =>
      rw [ends, Option.some_or] at isLast
      exact later c (ends.trans isLast)
    | none =>
      have nonempty : node.text.toList.getLast?.isSome := by simp [shape]
      obtain ⟨other, isOther⟩ := Option.isSome_iff_exists.mp nonempty
      rw [ends, Option.none_or, isOther, Option.some_or] at isLast
      exact ending c (isOther.trans isLast)

/-- **The written form of a path of legible nodes is read as that path**, with the texts of its keys
in place of the keys. -/
theorem parse_text {path : Path} (legible : ∀ node ∈ path.steps, node.Legible) :
    parse path.text = .ok path.written := by
  by_cases isRoot : path.isRoot = true
  · rw [eq_root_of_isRoot isRoot]
    rfl
  · rw [steps, if_neg isRoot] at legible
    obtain ⟨leaf, above⟩ := path
    cases shape : nodes ⟨leaf, above⟩ with
    | nil => exact absurd shape (nodes_ne_nil _)
    | cons first rest =>
      rw [shape] at legible
      have here := legible first List.mem_cons_self
      have later := fun node member => legible node (List.mem_cons_of_mem _ member)
      have text : (text ⟨leaf, above⟩).toList
          = first.text.toList ++ (joinNodes false rest).toList := by
        simp [Path.text, shape, joinNodes, here.not_placeholder]
      obtain ⟨⟨start, chars, isStart, solid⟩, -⟩ := here.solid
      have trimmed : Text.trim (Path.text ⟨leaf, above⟩).toList
          = start :: (chars ++ (joinNodes false rest).toList) := by
        rw [Text.trim_eq_self]
        · rw [text, isStart, List.cons_append]
        · intro c isHead
          rw [text, isStart] at isHead
          cases isHead
          exact solid
        · rw [Path.text, shape]
          exact joinNodes_solid legible true
      obtain ⟨next, reads⟩ := readFrom_node root here (continues_joinNodes later) 0
      have reading : readFrom root .start 0 (start :: (chars ++ (joinNodes false rest).toList))
          = .ok (written ⟨leaf, above⟩) := by
        rw [← List.cons_append, ← isStart, reads, readFrom_joinNodes _ later]
        have nodesWritten : nodes (written ⟨leaf, above⟩) = (first :: rest).map Node.written := by
          rw [← shape]
          simp [nodes, written]
        have real : ∀ node ∈ nodes (written ⟨leaf, above⟩), node.isPlaceholder = false := by
          intro node member
          rw [nodesWritten] at member
          obtain ⟨own, inside, rfl⟩ := List.mem_map.mp member
          rw [Node.isPlaceholder_written]
          exact (legible own inside).not_placeholder
        rw [← foldl_push_nodes real, nodesWritten, List.map_cons, List.foldl_cons]
      unfold parse
      rw [trimmed]
      simp only [reading]

end Path

end GraphValidation
