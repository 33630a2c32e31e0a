/-
**Blank characters.**

The characters that separate words: the White_Space property of Unicode, which holds twenty-five
code points.  Around a path expression and between the words of a type expression they carry no
meaning.

* `Char.isBlank` — membership of the class.
* `trim` — a text without the blanks at its two ends.
-/

namespace GraphValidation.Text

/-- A code point of the White_Space class. -/
def isBlank (c : Char) : Bool :=
  let n := c.toNat
  (9 ≤ n && n ≤ 13) || n == 0x20 || n == 0x85 || n == 0xA0 || n == 0x1680
    || (0x2000 ≤ n && n ≤ 0x200A) || n == 0x2028 || n == 0x2029 || n == 0x202F || n == 0x205F
    || n == 0x3000

/-- The characters from the first to the last that is no blank. -/
def trim (text : List Char) : List Char :=
  ((text.dropWhile isBlank).reverse.dropWhile isBlank).reverse

@[simp] theorem trim_nil : trim [] = [] := rfl

end GraphValidation.Text
