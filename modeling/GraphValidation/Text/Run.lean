/-
**Runs of code points.**

A property that has one value for each code point is listed in runs, from code point 0 upwards: the
length of a run, then the letters that stand for its value.

* `Run.ofTable` — the runs that the lines of a table list.
* `Run.labelled` — the characters with a value.
-/
import GraphValidation.Text.CharSet

namespace GraphValidation.Text

/-- Consecutive code points with one value. -/
structure Run where
  range : CodeRange
  label : String

namespace Run

/-- Reads runs; `start` is the first code point of a run, and `length` and `label` are the parts of
it that have been read, the label backwards. -/
def read (start length : Nat) (label : List Char) : List Char → List Run
  | [] => [⟨⟨start, start + length - 1⟩, String.ofList label.reverse⟩]
  | c :: rest =>
    if !c.isDigit then read start length (c :: label) rest
    else
      let digit := c.toNat - '0'.toNat
      if label.isEmpty then read start (length * 10 + digit) [] rest
      else
        ⟨⟨start, start + length - 1⟩, String.ofList label.reverse⟩
          :: read (start + length) digit [] rest

/-- The runs that the lines of a table list. -/
def ofTable (lines : List String) : List Run := read 0 0 [] (String.join lines).toList

/-- The characters of the runs with one of some labels. -/
def labelled (runs : List Run) (labels : List String) : CharSet :=
  .ofRanges ((runs.filter fun run => labels.contains run.label).map (·.range))

end Run

end GraphValidation.Text
