/-
**One reading of a template.**

A message is made by passes over a whole text, with backslashes in between that protect what has
been inserted.  What they are for is one reading of the template from left to right, in which a
backslash makes the next character literal, a parameter gives the text of its attribute, the
expression for the validated value gives the text of the value, and everything else is kept.

The passes look at the characters around a brace as they stand, and so they differ from the reading
in three ways: a brace after a protected dollar sign counts as one after a dollar sign, the name of
a parameter may reach over a backslash, and the text of an attribute may complete the name of the
validated value.  Templates with none of them are `Undisturbed`.

* `Template.read` — the reading.
* `Template.finish_fill` — the passes for attributes and for the value are the reading, for an
  undisturbed text.
* `Bundle.interpolate_reads` — **the message of a template is the reading of what the bundle makes
  of it**.
* `Bundle.interpolate_disturbed` — one template for each of the three ways in which it is not.
-/
import Mathlib.Data.List.Infix
import GraphValidation.Message

namespace GraphValidation

namespace Template

/-! ### The reading -/

/-- The name of the parameter at the start of a text, and what follows it.  A character behind a
backslash takes part in no parameter, so a name with a backslash is none. -/
def parameterAt? : List Char → Option (List Char × List Char)
  | [] => none
  | c :: body =>
    if c = '\x7b' then (splitName body).filter fun split => !split.1.contains '\\' else none

theorem parameterAt?_eq_some {text name after : List Char} :
    parameterAt? text = some (name, after) ↔
      text = '\x7b' :: (name ++ '\x7d' :: after) ∧ Braceless name ∧ '\\' ∉ name := by
  cases text with
  | nil => simp [parameterAt?]
  | cons c body =>
    by_cases opens : c = '\x7b'
    · simp [parameterAt?, opens, Option.filter_eq_some_iff, splitName_eq_some, and_assoc]
    · simp [parameterAt?, opens]

theorem length_of_parameterAt? {text name after : List Char}
    (found : parameterAt? text = some (name, after)) : after.length < text.length := by
  obtain ⟨rfl, -⟩ := parameterAt?_eq_some.1 found
  simp only [List.length_cons, List.length_append]
  omega

theorem parameterAt?_value (after : List Char) :
    parameterAt? ('\x7b' :: (Bundle.valueName ++ '\x7d' :: after)) =
      some (Bundle.valueName, after) :=
  parameterAt?_eq_some.2 ⟨rfl, ⟨by decide, by decide⟩, by decide⟩

/-- The text that is meant by a template.  The flag says whether a dollar sign that stands for
itself comes right before. -/
def read (attribute? : List Char → Option (List Char)) (value : List Char) (introduced : Bool) :
    List Char → List Char
  | [] => []
  | c :: rest =>
    if c = '\\' then
      match rest with
      | [] => [c]
      | d :: after => d :: read attribute? value false after
    else if c = '$' then
      match _found : parameterAt? rest with
      | some (name, after) =>
        if name = Bundle.valueName then value ++ read attribute? value false after
        else c :: read attribute? value true rest
      | none => c :: read attribute? value true rest
    else
      match _found : parameterAt? (c :: rest) with
      | some (name, after) =>
        match introduced, attribute? name with
        | false, some text => text ++ read attribute? value false after
        | _, _ => c :: read attribute? value false rest
      | none => c :: read attribute? value false rest
  termination_by text => text.length
  decreasing_by
    all_goals try simp only [List.length_cons]
    · omega
    · have := length_of_parameterAt? _found
      omega
    · omega
    · omega
    · have := length_of_parameterAt? _found
      simp only [List.length_cons] at this
      omega
    all_goals omega

/-! ### The passes, one character at a time -/

section Passes

variable {opening : Opening} {lookup : List Char → Option (List Char)} {previous : Option Char}

@[simp]
theorem substitute_nil : substitute opening lookup previous [] = [] := by rw [substitute]

@[simp]
theorem substitute_backslash : substitute opening lookup previous ['\\'] = ['\\'] := by
  rw [substitute]
  rfl

/-- A backslash is copied with the character after it. -/
@[simp]
theorem substitute_protected (d : Char) (after : List Char) :
    substitute opening lookup previous ('\\' :: d :: after) =
      '\\' :: d :: substitute opening lookup (some d) after := by
  rw [substitute]
  rfl

/-- A character that starts no parameter with a replacement is copied. -/
theorem substitute_kept {c : Char} {rest : List Char} (plain : c ≠ '\\')
    (unset : ∀ name after, parameter? opening previous c rest = some (name, after) →
      lookup name = none) :
    substitute opening lookup previous (c :: rest) =
      c :: substitute opening lookup (some c) rest := by
  rw [substitute.eq_def]
  simp only [plain, if_false]
  split
  · rename_i name after found
    rw [unset name after found]
  · rfl

theorem substitute_replaced {c : Char} {rest name after replacement : List Char}
    (plain : c ≠ '\\') (found : parameter? opening previous c rest = some (name, after))
    (isSet : lookup name = some replacement) :
    substitute opening lookup previous (c :: rest) =
      replacement ++ substitute opening lookup (some '\x7d') after := by
  rw [substitute.eq_def]
  simp only [plain, if_false]
  split
  · rename_i name' after' found'
    rw [found, Option.some.injEq, Prod.mk.injEq] at found'
    obtain ⟨rfl, rfl⟩ := found'
    rw [isSet]
  · rename_i missing
    simp [found] at missing

end Passes

/-! ### The last two passes -/

@[simp]
theorem unescape_protected (d : Char) (rest : List Char) :
    unescape ('\\' :: d :: rest) = d :: unescape rest := by
  rw [unescape, if_pos rfl]

theorem unescape_plain {c : Char} (plain : c ≠ '\\') (rest : List Char) :
    unescape (c :: rest) = c :: unescape rest := by
  cases rest with
  | nil => rfl
  | cons d rest => rw [unescape, if_neg plain]

/-- A text that has been protected comes out as it was, whatever follows it. -/
theorem unescape_escape_append (text rest : List Char) :
    unescape (escape text ++ rest) = text ++ unescape rest := by
  induction text with
  | nil => rfl
  | cons c text ih =>
    rw [escape, List.flatMap_cons, List.append_assoc]
    split
    · exact congrArg (c :: ·) ih
    · rename_i common
      have plain : c ≠ '\\' := by
        rintro rfl
        exact common rfl
      exact (unescape_plain plain _).trans (congrArg (c :: ·) ih)

/-- What the passes after the attributes make of a text: the value is filled in, and the backslashes
that protect go. -/
def finish (value text : List Char) : List Char :=
  unescape (substitute .expression
    (fun name => if name = Bundle.valueName then some (escape value) else none) none text)

theorem substitute_expression_previous (lookup : List Char → Option (List Char))
    (previous : Option Char) (text : List Char) :
    substitute .expression lookup previous text = substitute .expression lookup none text := by
  rw [substitute.eq_def, substitute.eq_def .expression lookup none]
  rfl

variable {value : List Char}

@[simp]
theorem finish_nil : finish value [] = [] := by simp [finish, unescape]

@[simp]
theorem finish_backslash : finish value ['\\'] = ['\\'] := by simp [finish, unescape]

@[simp]
theorem finish_protected (d : Char) (rest : List Char) :
    finish value ('\\' :: d :: rest) = d :: finish value rest := by
  rw [finish, substitute_protected, unescape_protected, substitute_expression_previous, finish]

/-- A character is kept where it does not start the expression for the value. -/
theorem finish_kept {c : Char} {rest : List Char} (plain : c ≠ '\\')
    (other : ∀ after, c = '$' → rest ≠ '\x7b' :: (Bundle.valueName ++ '\x7d' :: after)) :
    finish value (c :: rest) = c :: finish value rest := by
  have unset : ∀ name after, parameter? .expression none c rest = some (name, after) →
      (if name = Bundle.valueName then some (escape value) else none) = none := by
    intro name after found
    rw [if_neg]
    rintro rfl
    obtain ⟨body, opens, split⟩ := Option.bind_eq_some_iff.1 found
    obtain ⟨rfl, -⟩ := splitName_eq_some.1 split
    cases rest with
    | nil => simp [Opening.body?] at opens
    | cons d rest =>
      obtain ⟨⟨rfl, rfl⟩, rfl⟩ := by simpa [Opening.body?] using opens
      exact other after rfl rfl
  rw [finish, substitute_kept plain unset, unescape_plain plain, substitute_expression_previous,
    finish]

theorem finish_value (after : List Char) :
    finish value ('$' :: '\x7b' :: (Bundle.valueName ++ '\x7d' :: after)) =
      value ++ finish value after := by
  have found : parameter? .expression none '$' ('\x7b' :: (Bundle.valueName ++ '\x7d' :: after)) =
      some (Bundle.valueName, after) := by
    rw [parameter?, Opening.body?, if_pos ⟨rfl, rfl⟩, Option.bind_some, splitName_eq_some]
    exact ⟨rfl, by decide, by decide⟩
  rw [finish, substitute_replaced (by decide) found (if_pos rfl), unescape_escape_append,
    substitute_expression_previous, finish]

/-- Protected text passes through. -/
theorem finish_escape_append (text rest : List Char) :
    finish value (escape text ++ rest) = text ++ finish value rest := by
  induction text with
  | nil => rfl
  | cons c text ih =>
    rw [escape, List.flatMap_cons, List.append_assoc]
    split
    · exact (finish_protected c _).trans (congrArg (c :: ·) ih)
    · rename_i common
      have plain : c ≠ '\\' ∧ c ≠ '$' := by
        constructor <;> rintro rfl <;> exact common rfl
      exact (finish_kept plain.1 fun _ dollar => absurd dollar plain.2).trans
        (congrArg (c :: ·) ih)

/-! ### The pass for attributes -/

/-- The pass that fills in the texts of attributes. -/
def fill (attribute? : List Char → Option (List Char)) (previous : Option Char)
    (text : List Char) : List Char :=
  substitute .parameter (fun name => (attribute? name).map escape) previous text

variable {attribute? : List Char → Option (List Char)} {previous : Option Char}

@[simp]
theorem fill_nil : fill attribute? previous [] = [] := substitute_nil

@[simp]
theorem fill_backslash : fill attribute? previous ['\\'] = ['\\'] := substitute_backslash

@[simp]
theorem fill_protected (d : Char) (after : List Char) :
    fill attribute? previous ('\\' :: d :: after) = '\\' :: d :: fill attribute? (some d) after :=
  substitute_protected d after

theorem parameter?_parameter_eq_some {c : Char} {rest name after : List Char} :
    parameter? .parameter previous c rest = some (name, after) ↔
      (c = '\x7b' ∧ previous ≠ some '$') ∧ rest = name ++ '\x7d' :: after ∧ Braceless name := by
  simp [parameter?, Opening.body?, Option.bind_eq_some_iff, splitName_eq_some]

/-- A character is kept where it does not start a parameter of an attribute. -/
theorem fill_kept {c : Char} {rest : List Char} (plain : c ≠ '\\')
    (unset : ∀ name after, c = '\x7b' → previous ≠ some '$' → Braceless name →
      rest = name ++ '\x7d' :: after → attribute? name = none) :
    fill attribute? previous (c :: rest) = c :: fill attribute? (some c) rest := by
  refine substitute_kept plain fun name after found => ?_
  obtain ⟨⟨opens, alone⟩, same, braceless⟩ := parameter?_parameter_eq_some.1 found
  rw [unset name after opens alone braceless same, Option.map_none]

theorem fill_set {name after text : List Char} (alone : previous ≠ some '$')
    (braceless : Braceless name) (isSet : attribute? name = some text) :
    fill attribute? previous ('\x7b' :: (name ++ '\x7d' :: after)) =
      escape text ++ fill attribute? (some '\x7d') after :=
  substitute_replaced (by decide)
    (parameter?_parameter_eq_some.2 ⟨⟨rfl, alone⟩, rfl, braceless⟩) (by rw [isSet, Option.map_some])

/-- What stands before a text does not matter where the text starts with no parameter of an
attribute. -/
theorem fill_previous {text : List Char}
    (unset : ∀ name after, Braceless name → text = '\x7b' :: (name ++ '\x7d' :: after) →
      attribute? name = none) :
    fill attribute? previous text = fill attribute? none text := by
  cases text with
  | nil => rw [fill_nil, fill_nil]
  | cons c rest =>
    by_cases plain : c = '\\'
    · subst plain
      cases rest <;> simp
    · have here : ∀ name after, c = '\x7b' → Braceless name → rest = name ++ '\x7d' :: after →
          attribute? name = none := by
        rintro name after rfl braceless rfl
        exact unset name after braceless rfl
      rw [fill_kept plain fun name after opens _ => here name after opens,
        fill_kept plain fun name after opens _ => here name after opens]

/-- Ordinary characters up to a closing brace are kept. -/
theorem fill_append_closing {text : List Char} (ordinary : ∀ c ∈ text, isSpecial c = false)
    (rest : List Char) :
    fill attribute? previous (text ++ '\x7d' :: rest) =
      text ++ '\x7d' :: fill attribute? (some '\x7d') rest := by
  induction text generalizing previous with
  | nil => exact fill_kept (by decide) fun _ _ opens => absurd opens (by decide)
  | cons c text ih =>
    have common := ordinary c List.mem_cons_self
    have plain : c ≠ '\\' ∧ c ≠ '\x7b' := by
      constructor <;> rintro rfl <;> exact absurd common (by decide)
    rw [List.cons_append, fill_kept plain.1 fun _ _ opens => absurd opens plain.2,
      ih fun d member => ordinary d (List.mem_cons_of_mem c member), List.cons_append]

/-- Protected text that goes with ordinary characters is a part of them. -/
theorem prefix_of_escape_append {text rest start other : List Char}
    (ordinary : ∀ c ∈ start, isSpecial c = false)
    (same : escape text ++ rest = start ++ '\x7d' :: other) : text <+: start := by
  induction text generalizing start with
  | nil => exact List.nil_prefix
  | cons c text ih =>
    rw [escape, List.flatMap_cons, List.append_assoc] at same
    cases start with
    | nil =>
      split at same
      · exact absurd (List.cons.inj same).1 (by decide)
      · rename_i common
        obtain rfl : c = '\x7d' := (List.cons.inj same).1
        exact absurd rfl common
    | cons d start =>
      have ordinaryHead := ordinary d List.mem_cons_self
      split at same
      · obtain rfl : '\\' = d := (List.cons.inj same).1
        exact absurd ordinaryHead (by decide)
      · obtain ⟨rfl, later⟩ := List.cons.inj same
        exact List.cons_prefix_cons.2
          ⟨rfl, ih (fun d member => ordinary d (List.mem_cons_of_mem c member)) later⟩

/-- What a filled text starts with was there before, unless an attribute put it there. -/
theorem exists_of_fill_eq_cons {c : Char} {text filled : List Char} (plain : c ≠ '\\')
    (unset : ∀ name after, previous ≠ some '$' → Braceless name →
      text = '\x7b' :: (name ++ '\x7d' :: after) → attribute? name = none)
    (starts : fill attribute? previous text = c :: filled) :
    ∃ rest, text = c :: rest ∧ filled = fill attribute? (some c) rest := by
  cases text with
  | nil => simp at starts
  | cons d rest =>
    by_cases backslash : d = '\\'
    · subst backslash
      cases rest <;> simp [plain.symm] at starts
    · have kept : fill attribute? previous (d :: rest) = d :: fill attribute? (some d) rest := by
        refine fill_kept backslash ?_
        rintro name after rfl alone braceless rfl
        exact unset name after alone braceless rfl
      obtain ⟨rfl, rfl⟩ := List.cons.inj (kept.symm.trans starts)
      exact ⟨rest, rfl, rfl⟩

/-- The texts of attributes do not go on with a name that has been begun. -/
def Apart (attribute? : List Char → Option (List Char)) (goal text : List Char) : Prop :=
  ∀ begun name after inserted, Braceless name →
    text = begun ++ '\x7b' :: (name ++ '\x7d' :: after) → attribute? name = some inserted →
    ¬ begun ++ inserted <+: goal

theorem Apart.rest {c : Char} {goal text : List Char}
    (apart : Apart attribute? (c :: goal) (c :: text)) : Apart attribute? goal text :=
  fun begun name after inserted braceless same isSet part =>
    apart (c :: begun) name after inserted braceless (congrArg (c :: ·) same) isSet
      (List.cons_prefix_cons.2 ⟨rfl, part⟩)

/-- No attribute is filled in where what comes out starts with such a name. -/
theorem eq_none_of_fill_eq_append {goal text filled : List Char}
    (ordinary : ∀ c ∈ goal, isSpecial c = false) (apart : Apart attribute? goal text)
    (starts : fill attribute? previous text = goal ++ '\x7d' :: filled) (name after : List Char)
    (alone : previous ≠ some '$') (braceless : Braceless name)
    (same : text = '\x7b' :: (name ++ '\x7d' :: after)) : attribute? name = none := by
  refine Option.eq_none_iff_forall_ne_some.2 fun inserted isSet => ?_
  rw [same, fill_set alone braceless isSet] at starts
  exact apart [] name after inserted braceless same isSet (prefix_of_escape_append ordinary starts)

/-- Ordinary characters up to a closing brace were there before, unless the text of an attribute
goes on with them. -/
theorem exists_of_fill_eq_append {goal text filled : List Char}
    (ordinary : ∀ c ∈ goal, isSpecial c = false) (apart : Apart attribute? goal text)
    (starts : fill attribute? previous text = goal ++ '\x7d' :: filled) :
    ∃ after, text = goal ++ '\x7d' :: after := by
  induction goal generalizing previous text with
  | nil =>
    obtain ⟨after, same, -⟩ := exists_of_fill_eq_cons (by decide)
      (eq_none_of_fill_eq_append ordinary apart starts) starts
    exact ⟨after, same⟩
  | cons c goal ih =>
    have plain : c ≠ '\\' := by
      rintro rfl
      exact absurd (ordinary '\\' List.mem_cons_self) (by decide)
    obtain ⟨rest, rfl, filledRest⟩ := exists_of_fill_eq_cons plain
      (eq_none_of_fill_eq_append ordinary apart starts) starts
    obtain ⟨after, rfl⟩ := ih (fun d member => ordinary d (List.mem_cons_of_mem c member))
      apart.rest filledRest.symm
    exact ⟨after, rfl⟩

/-! ### Undisturbed templates -/

/-- A text in which no backslash protects what comes after the text. -/
inductive Settled : List Char → Prop
  | nil : Settled []
  | escaped (d : Char) {text : List Char} : Settled text → Settled ('\\' :: d :: text)
  | plain {c : Char} {text : List Char} : c ≠ '\\' → Settled text → Settled (c :: text)

theorem Settled.append {text more : List Char} (settled : Settled text) (also : Settled more) :
    Settled (text ++ more) := by
  induction settled with
  | nil => exact also
  | escaped d _ ih => exact .escaped d ih
  | plain isPlain _ ih => exact .plain isPlain ih

theorem Settled.of_plain {text : List Char} (plain : '\\' ∉ text) : Settled text := by
  induction text with
  | nil => exact .nil
  | cons c text ih =>
    rw [List.mem_cons, not_or] at plain
    exact .plain (Ne.symm plain.1) (ih plain.2)

/-- None of the three ways in which the passes see an attribute where none is meant. -/
structure Undisturbed (attribute? : List Char → Option (List Char)) (text : List Char) : Prop where
  /-- No parameter of an attribute stands right after a dollar sign behind a backslash. -/
  dollars : ∀ before name after, Settled before → Braceless name →
    text = before ++ '\\' :: '$' :: '\x7b' :: (name ++ '\x7d' :: after) → attribute? name = none
  /-- No name of an attribute reaches over a backslash. -/
  names : ∀ before name after, Settled before → Braceless name → '\\' ∈ name →
    text = before ++ '\x7b' :: (name ++ '\x7d' :: after) → attribute? name = none
  /-- No text of an attribute goes on with the name of the validated value behind its opening. -/
  values : ∀ before rest, Settled before → text = before ++ '$' :: '\x7b' :: rest →
    Apart attribute? Bundle.valueName rest

/-- What is left after a settled beginning is undisturbed. -/
theorem Undisturbed.rest (before : List Char) {rest : List Char} (settled : Settled before)
    (undisturbed : Undisturbed attribute? (before ++ rest)) : Undisturbed attribute? rest where
  dollars := fun more name after also braceless same =>
    undisturbed.dollars (before ++ more) name after (settled.append also) braceless
      (by rw [same, List.append_assoc])
  names := fun more name after also braceless reaches same =>
    undisturbed.names (before ++ more) name after (settled.append also) braceless reaches
      (by rw [same, List.append_assoc])
  values := fun more rest also same =>
    undisturbed.values (before ++ more) rest (settled.append also)
      (by rw [same, List.append_assoc])

theorem ordinary_of_mem_valueName (c : Char) (member : c ∈ Bundle.valueName) :
    isSpecial c = false := by
  have checked : (Bundle.valueName.all fun c => !isSpecial c) = true := by decide
  simpa using List.all_eq_true.1 checked c member

/-- A dollar sign that stands for itself is kept where it does not introduce the value. -/
theorem finish_fill_dollar {rest : List Char} (undisturbed : Undisturbed attribute? ('$' :: rest))
    (other : ∀ after, rest ≠ '\x7b' :: (Bundle.valueName ++ '\x7d' :: after)) :
    finish value (fill attribute? previous ('$' :: rest)) =
      '$' :: finish value (fill attribute? (some '$') rest) := by
  rw [fill_kept (by decide) fun _ _ opens => absurd opens (by decide)]
  refine finish_kept (by decide) fun filled _ starts => ?_
  cases rest with
  | nil => simp at starts
  | cons c rest =>
    by_cases backslash : c = '\\'
    · subst backslash
      cases rest <;> simp at starts
    · rw [fill_kept backslash fun _ _ _ alone => absurd rfl alone] at starts
      obtain ⟨rfl, inside⟩ := List.cons.inj starts
      obtain ⟨after, rfl⟩ := exists_of_fill_eq_append ordinary_of_mem_valueName
        (undisturbed.values [] rest .nil rfl) inside
      exact other after rfl

/-- Any other character is kept where it starts no parameter of an attribute. -/
theorem finish_fill_kept {c : Char} {rest : List Char}
    (undisturbed : Undisturbed attribute? (c :: rest)) (plain : c ≠ '\\') (common : c ≠ '$')
    (unset : ∀ name after, parameterAt? (c :: rest) = some (name, after) → previous ≠ some '$' →
      attribute? name = none) :
    finish value (fill attribute? previous (c :: rest)) =
      c :: finish value (fill attribute? (some c) rest) := by
  have noAttribute : ∀ name after, c = '\x7b' → previous ≠ some '$' → Braceless name →
      rest = name ++ '\x7d' :: after → attribute? name = none := by
    rintro name after rfl alone braceless rfl
    by_cases reaches : '\\' ∈ name
    · exact undisturbed.names [] name after .nil braceless reaches rfl
    · exact unset name after (parameterAt?_eq_some.2 ⟨rfl, braceless, reaches⟩) alone
  rw [fill_kept plain noAttribute, finish_kept plain fun _ dollar => absurd dollar common]

/-- **For an undisturbed text the passes are the reading.**  Their look back at the character before
a brace is the flag of the reading. -/
theorem finish_fill {introduced : Bool} {text : List Char}
    (undisturbed : Undisturbed attribute? text)
    (agrees : previous = some '$' ↔ introduced = true) :
    finish value (fill attribute? previous text) = read attribute? value introduced text := by
  fun_induction read attribute? value introduced text generalizing previous with
  | case1 introduced => simp
  | case2 introduced => simp
  | case3 introduced d after ih =>
    have later : Undisturbed attribute? after := undisturbed.rest ['\\', d] (.escaped d .nil)
    rw [fill_protected, finish_protected]
    by_cases dollar : d = '$'
    · -- the passes look back at this dollar sign, the reading does not
      subst dollar
      rw [fill_previous fun name after' braceless same =>
        undisturbed.dollars [] name after' .nil braceless (by rw [same]; rfl)]
      exact congrArg ('$' :: ·) (ih later (by simp))
    · exact congrArg (d :: ·) (ih later (by simp [dollar]))
  | case4 introduced rest after _ found ih =>
    obtain ⟨rfl, -, unprotected⟩ := parameterAt?_eq_some.1 found
    have spread : '$' :: '\x7b' :: (Bundle.valueName ++ '\x7d' :: after) =
        ('$' :: '\x7b' :: (Bundle.valueName ++ ['\x7d'])) ++ after := by simp
    have later : Undisturbed attribute? after := by
      rw [spread] at undisturbed
      exact undisturbed.rest _ (.of_plain (by decide))
    rw [fill_kept (by decide) fun _ _ opens => absurd opens (by decide),
      fill_kept (by decide) fun _ _ _ alone => absurd rfl alone,
      fill_append_closing ordinary_of_mem_valueName, finish_value, ih later (by simp)]
  | case5 introduced rest name after found other _ ih =>
    rw [finish_fill_dollar undisturbed, ih (undisturbed.rest ['$'] (.of_plain (by decide))) (by simp)]
    rintro after' rfl
    rw [parameterAt?_value, Option.some.injEq, Prod.mk.injEq] at found
    exact other found.1.symm
  | case6 introduced rest found _ ih =>
    rw [finish_fill_dollar undisturbed, ih (undisturbed.rest ['$'] (.of_plain (by decide))) (by simp)]
    rintro after' rfl
    rw [parameterAt?_value] at found
    exact absurd found (by simp)
  | case7 c rest plain _ name after found text isSet ih =>
    obtain ⟨same, braceless, unprotected⟩ := parameterAt?_eq_some.1 found
    have spread : '\x7b' :: (name ++ '\x7d' :: after) = ('\x7b' :: (name ++ ['\x7d'])) ++ after := by
      simp
    have later : Undisturbed attribute? after := by
      rw [same, spread] at undisturbed
      exact undisturbed.rest _ (.of_plain (by simpa using unprotected))
    rw [same, fill_set (by simpa using agrees) braceless isSet, finish_escape_append,
      ih later (by simp)]
  | case8 introduced c rest plain common name after found unset ih =>
    rw [finish_fill_kept undisturbed plain common,
      ih (undisturbed.rest [c] (.plain plain .nil)) (by simp [common])]
    intro name' after' found' alone
    obtain ⟨rfl, rfl⟩ := by simpa [found] using found'
    exact Option.eq_none_iff_forall_ne_some.2 fun text =>
      unset text (by simpa [alone] using agrees)
  | case9 introduced c rest plain common found ih =>
    rw [finish_fill_kept undisturbed plain common (by simp [found]),
      ih (undisturbed.rest [c] (.plain plain .nil)) (by simp [common])]

/-! ### Undisturbed by what is set -/

/-- A text with no brace behind a protected dollar sign and none where the name of the value has
begun is undisturbed by attributes whose names hold no backslash. -/
theorem Undisturbed.of_absent {text : List Char}
    (dollars : ¬ ['\\', '$', '\x7b'] <:+: text)
    (names : ∀ name, '\\' ∈ name → attribute? name = none)
    (values : ∀ begun ∈ Bundle.valueName.inits, ¬ '$' :: '\x7b' :: (begun ++ ['\x7b']) <:+: text) :
    Undisturbed attribute? text where
  dollars := by
    rintro before name after - - rfl
    exact absurd ⟨before, name ++ '\x7d' :: after, by simp⟩ dollars
  names := fun _ name _ _ _ reaches _ => names name reaches
  values := by
    rintro before rest - rfl begun name after inserted - rfl - part
    exact absurd ⟨before, name ++ '\x7d' :: after, by simp⟩
      (values begun ((List.mem_inits _ _).2 ((List.prefix_append begun inserted).trans part)))

end Template

namespace Bundle

/-- The text of an attribute. -/
def attributeText? (attributes : Attributes) (name : List Char) : Option (List Char) :=
  (attributes.get? (String.ofList name)).map fun found => found.text.toList

/-- A message is what the passes for the attributes and for the value make of the template, once the
bundle has resolved its entries. -/
theorem interpolate_eq_finish (bundle : Bundle) (template : String) (attributes : Attributes)
    (value : Value) :
    bundle.interpolate template attributes value = String.ofList (Template.finish value.text.toList
      (Template.fill (attributeText? attributes) none
        (bundle.resolve depthLimit template.toList))) := by
  simp [interpolate, Template.finish, Template.fill, attributeText?, Function.comp_def]

/-- The text that is meant by a template, once the bundle has resolved its entries. -/
def reading (bundle : Bundle) (template : String) (attributes : Attributes) (value : Value) :
    String :=
  String.ofList (Template.read (attributeText? attributes) value.text.toList false
    (bundle.resolve depthLimit template.toList))

/-- **A message is one reading of what the bundle makes of the template**, unless an attribute
stands where the passes see it and the reading does not. -/
theorem interpolate_reads (bundle : Bundle) (template : String) (attributes : Attributes)
    (value : Value)
    (undisturbed : Template.Undisturbed (attributeText? attributes)
      (bundle.resolve depthLimit template.toList)) :
    bundle.interpolate template attributes value =
      bundle.reading template attributes value := by
  have noneBefore : none = some '$' ↔ false = true := by simp
  rw [interpolate_eq_finish, reading, Template.finish_fill undisturbed noneBefore]

/-- Braces behind backslashes are literal next to a parameter, and neither the text of the attribute
nor the value is read again. -/
theorem interpolate_reads_escapes :
    builtin.interpolate "\\\x7bmax\\\x7d is \x7bmax\x7d, not $\x7bvalidatedValue\x7d"
        ⟨[("max", .string "$\x7bvalidatedValue\x7d")]⟩ (.string "\x7bmax\x7d") =
      "\x7bmax\x7d is $\x7bvalidatedValue\x7d, not \x7bmax\x7d" := by
  rw [interpolate_reads]
  · decide +kernel
  · refine .of_absent ?_ ?_ ?_
    · decide +kernel
    · intro name reaches
      have other : String.ofList name ≠ "max" := by
        intro same
        have named : name = "max".toList := by rw [← same, String.toList_ofList]
        subst named
        exact absurd reaches (by decide)
      simp [attributeText?, Attributes.get?, List.lookup_cons, beq_eq_false_iff_ne.2 other]
    · decide +kernel

/-- **The passes see an attribute where none is meant**: behind a protected dollar sign, where
its name reaches over a backslash, and where its text completes the name of the value. -/
theorem interpolate_disturbed :
    (builtin.interpolate "\\$\x7bx\x7d" ⟨[("x", .string "v")]⟩ .null = "$\x7bx\x7d" ∧
      builtin.reading "\\$\x7bx\x7d" ⟨[("x", .string "v")]⟩ .null = "$v") ∧
    (builtin.interpolate "\x7ba\\\x7d" ⟨[("a\\", .string "v")]⟩ .null = "v" ∧
      builtin.reading "\x7ba\\\x7d" ⟨[("a\\", .string "v")]⟩ .null = "\x7ba\x7d") ∧
    (builtin.interpolate "$\x7b\x7bx\x7d\x7d" ⟨[("x", .string "validatedValue")]⟩
        (.string "secret") = "secret" ∧
      builtin.reading "$\x7b\x7bx\x7d\x7d" ⟨[("x", .string "validatedValue")]⟩
        (.string "secret") = "$\x7bvalidatedValue\x7d") := by
  decide +kernel

end Bundle

end GraphValidation
