/-
**What is inserted for the validated value.**

A message is made of the bundle, the template and the attributes up to the places where the
expression for the validated value stands.  What stands between these places does not depend on the
value, and at each of them the text of the value stands as it is, whatever braces, dollar signs and
backslashes it holds.  The value is protected, inserted and freed of its protection with the text
around it, and this gives its text back because all that comes before it has been read to its end:
no backslash is left over that could protect what follows.

* `Template.valueExpression` — the expression for the validated value.
* `Template.pieces` — what stands between the values.
* `Template.finish_eq_intercalate` — the passes join the pieces with the value.
* `Bundle.interpolate_inserts` — **a message is its pieces, joined with the text of the value**.
-/
import GraphValidation.Proofs.OneReading

namespace GraphValidation

namespace Template

/-- The expression for the validated value. -/
def valueExpression : List Char := '$' :: '\x7b' :: (Bundle.valueName ++ ['\x7d'])

/-- What follows the expression for the validated value, where a text starts with it. -/
def afterValue? (text : List Char) : Option (List Char) := text.dropPrefix? valueExpression

theorem afterValue?_eq_some {text after : List Char} :
    afterValue? text = some after ↔ text = valueExpression ++ after := by
  rw [afterValue?, List.dropPrefix?_eq_some_iff]
  constructor
  · rintro ⟨start, rfl, same⟩
    rw [eq_of_beq same]
  · rintro rfl
    exact ⟨valueExpression, rfl, beq_self_eq_true _⟩

theorem length_of_afterValue? {text after : List Char} (found : afterValue? text = some after) :
    after.length < text.length := by
  obtain rfl := afterValue?_eq_some.mp found
  simp only [valueExpression, List.cons_append, List.length_cons, List.length_append]
  omega

/-- What stands between the values: a text is cut at each expression for the validated value that no
backslash protects, and the backslashes that protect are dropped. -/
def pieces : List Char → List (List Char)
  | [] => [[]]
  | c :: rest =>
    if c = '\\' then
      match rest with
      | [] => [[c]]
      | d :: after => (pieces after).modifyHead (d :: ·)
    else
      match _found : afterValue? (c :: rest) with
      | some after => [] :: pieces after
      | none => (pieces rest).modifyHead (c :: ·)
  termination_by text => text.length
  decreasing_by
    · simp only [List.length_cons]
      omega
    · exact length_of_afterValue? _found
    · simp only [List.length_cons]
      omega

theorem modifyHead_ne_nil {pieces : List (List Char)} (nonempty : pieces ≠ []) (c : Char) :
    pieces.modifyHead (c :: ·) ≠ [] := by
  simpa using nonempty

/-- There is a piece, if an empty one, on each side of a value. -/
theorem pieces_ne_nil (text : List Char) : pieces text ≠ [] := by
  fun_induction pieces text with
  | case1 => exact List.cons_ne_nil _ _
  | case2 => exact List.cons_ne_nil _ _
  | case3 d after ih => exact modifyHead_ne_nil ih d
  | case4 c rest _ after _ _ => exact List.cons_ne_nil _ _
  | case5 c rest _ _ ih => exact modifyHead_ne_nil ih c

/-- A character in front of the first piece is one in front of the whole. -/
theorem intercalate_modifyHead (value : List Char) {pieces : List (List Char)}
    (nonempty : pieces ≠ []) (c : Char) :
    value.intercalate (pieces.modifyHead (c :: ·)) = c :: value.intercalate pieces := by
  cases pieces with
  | nil => exact absurd rfl nonempty
  | cons piece rest => cases rest <;> simp [List.intercalate]

/-- An empty piece in front puts the value there. -/
theorem intercalate_nil_cons (value : List Char) {pieces : List (List Char)}
    (nonempty : pieces ≠ []) :
    value.intercalate ([] :: pieces) = value ++ value.intercalate pieces := by
  cases pieces with
  | nil => exact absurd rfl nonempty
  | cons piece rest => simp [List.intercalate]

/-- **The passes after the attributes join the pieces with the value.** -/
theorem finish_eq_intercalate (value text : List Char) :
    finish value text = value.intercalate (pieces text) := by
  fun_induction pieces text with
  | case1 => simp [List.intercalate]
  | case2 => simp [List.intercalate]
  | case3 d after ih =>
    rw [finish_protected, ih, intercalate_modifyHead value (pieces_ne_nil after)]
  | case4 c rest plain after found ih =>
    have shape : c :: rest = '$' :: '\x7b' :: (Bundle.valueName ++ '\x7d' :: after) := by
      rw [afterValue?_eq_some.mp found]
      simp [valueExpression]
    rw [shape, finish_value, ih, intercalate_nil_cons value (pieces_ne_nil after)]
  | case5 c rest plain missing ih =>
    have other : ∀ after, c = '$' → rest ≠ '\x7b' :: (Bundle.valueName ++ '\x7d' :: after) := by
      rintro after rfl rfl
      have found : afterValue? ('$' :: '\x7b' :: (Bundle.valueName ++ '\x7d' :: after))
          = some after := afterValue?_eq_some.mpr (by simp [valueExpression])
      rw [missing] at found
      cases found
    rw [finish_kept plain other, ih, intercalate_modifyHead value (pieces_ne_nil rest)]

end Template

namespace Bundle

/-- What stands in a message between the texts of the value. -/
def pieces (bundle : Bundle) (template : String) (attributes : Attributes) : List String :=
  (Template.pieces (Template.fill (attributeText? attributes) none
    (bundle.resolve depthLimit template.toList))).map String.ofList

/-- **A message is its pieces, joined with the text of the value.**  The pieces are those of the
bundle, the template and the attributes alone. -/
theorem interpolate_inserts (bundle : Bundle) (template : String) (attributes : Attributes) :
    bundle.pieces template attributes ≠ [] ∧ ∀ value : Value,
      bundle.interpolate template attributes value
        = value.text.intercalate (bundle.pieces template attributes) := by
  constructor
  · simpa [pieces] using Template.pieces_ne_nil _
  · intro value
    rw [interpolate_eq_finish, Template.finish_eq_intercalate, ← String.toList_inj,
      String.toList_ofList, String.toList_intercalate, pieces, List.map_map]
    simp

/-- Two values, one of them at the end. -/
example : builtin.pieces "'$\x7bvalidatedValue\x7d' is above \x7bmax\x7d: $\x7bvalidatedValue\x7d"
    (.ofList [("max", .int 3)]) = ["'", "' is above 3: ", ""] := by decide +kernel

end Bundle

end GraphValidation
