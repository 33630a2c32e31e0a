/-
**Classes of characters in names.**

Which characters a name may hold and how a quoted name is written follows edition 17 of the Unicode
standard: the tables of edition 16 and the code points that edition 17 added to them.

* `isAlphabetic`, `isAlphanumeric` — letters, and letters and numbers.
* `isPrintable` — characters with a shape of their own.
-/
import GraphValidation.Text.Property

namespace GraphValidation.Text

open Category (setOf)

/-- The characters that edition 17 added. -/
def addedCharacters : CharSet := .ofTable
  ["88F C5C CDC 1ACF-1ADD 1AE0-1AEB 20C1 2B96 A7CE-A7CF A7D2 A7D4 A7F1 FBC3-FBD2 FD90-FD91",
   "FDC8-FDCE 10940-10959 10EC5-10EC7 10ED0-10ED8 10EFA-10EFB 11B60-11B67 11DB0-11DDB",
   "11DE0-11DE9 16EA0-16EB8 16EBB-16ED3 16FF2-16FF6 187F8-187FF 18D09-18D1E 18D80-18DF2",
   "1CCFA-1CCFC 1CEBA-1CED0 1CEE0-1CEF0 1E6C0-1E6DE 1E6E0-1E6F5 1E6FE-1E6FF 1F6D8 1F777-1F77A",
   "1F8D0-1F8D8 1FA54-1FA57 1FA8A 1FA8E 1FAC8 1FACD 1FAEA 1FAEF 1FBFA 2B73A-2B73F 2CEA2-2CEAD",
   "323B0-33479"]

/-- The alphabetic ones among them. -/
def addedAlphabetic : CharSet := .ofTable
  ["88F C5C CDC A7CE-A7CF A7D2 A7D4 A7F1 10940-10959 10EC5-10EC7 10EFA-10EFB 11B60-11B67",
   "11DB0-11DDB 16EA0-16EB8 16EBB-16ED3 16FF2-16FF6 187F8-187FF 18D09-18D1E 18D80-18DF2",
   "1E6C0-1E6DE 1E6E0-1E6F5 1E6FE-1E6FF 2B73A-2B73F 2CEA2-2CEAD 323B0-33479"]

/-- The numbers among them. -/
def addedNumbers : CharSet := .ofTable ["11DE0-11DE9 16FF4-16FF6"]

/-- Those among them that are drawn together with the character before them. -/
def addedExtenders : CharSet := .ofTable
  ["1ACF-1ADD 1AE0-1AEB 10EFA-10EFB 11B60 11B62-11B64 11B66 1E6E3 1E6E6 1E6EE-1E6EF 1E6F5"]

/-- Alphabetic characters. -/
def alphabetic : CharSet := Property.alphabetic.union addedAlphabetic

/-- Alphabetic characters and all numbers. -/
def alphanumeric : CharSet :=
  .unionAll [alphabetic, setOf Category.numbers, addedNumbers]

/-- Marks that are drawn together with the character before them.  The two halfwidth sound marks are
letters and stand for themselves. -/
def attachedMarks : CharSet :=
  (Property.graphemeExtend.union addedExtenders).difference (.ofTable ["FF9E-FF9F"])

/-- Characters that are seen and stand for themselves.  The space is the only blank among them. -/
def printable : CharSet :=
  ((CharSet.unionAll [.single ' ', addedCharacters,
    (setOf [.control, .format, .privateUse, .unassigned, .spaceSeparator, .lineSeparator,
      .paragraphSeparator]).complement]).difference Property.defaultIgnorable).difference
    attachedMarks

/-- Whether a character is alphabetic. -/
def isAlphabetic (c : Char) : Bool := alphabetic.contains c

/-- Whether a character is alphabetic or a number. -/
def isAlphanumeric (c : Char) : Bool := alphanumeric.contains c

/-- Whether a character is seen and stands for itself. -/
def isPrintable (c : Char) : Bool := printable.contains c

end GraphValidation.Text
