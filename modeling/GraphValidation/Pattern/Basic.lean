/-
**Patterns.**

* `Pattern.compile?` — the program of a pattern, unless its text is none or the pattern is too
  large.
* `Pattern.whole` — the pattern that the whole of a text, or of a line, has to match.
-/
import GraphValidation.Pattern.Footprint
import GraphValidation.Pattern.Program
import GraphValidation.Pattern.Reader

namespace GraphValidation.Pattern

/-- The program of a pattern. -/
def compile? (flags : Flags) (text : String) : Option Program :=
  ((readPattern flags text).filter fits).map Program.ofExpr

/-- The text of a pattern between two anchors. -/
def whole (text : String) : String := "^(?:" ++ text ++ ")$"

end GraphValidation.Pattern
