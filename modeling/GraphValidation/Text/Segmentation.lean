/-
**Segmentation.**

The classes of characters by which edition 16 of the Unicode standard divides a text into what a
reader takes for one character, into words and into sentences.  Each class has the names that the
standard gives it.

* `graphemeClasses`, `wordClasses`, `sentenceClasses` — the classes with their names.
-/
import GraphValidation.Text.Property
import GraphValidation.Text.Script

namespace GraphValidation.Text.Segmentation

open Category (setOf)
open Property

/-! ### What a reader takes for one character -/

/-- Characters that are part of the one before them. -/
def extend : CharSet := graphemeExtend.union emojiModifier

/-- Characters that are part of the one after them, besides marks around it. -/
def otherPrepend : CharSet := .ofTable
  ["D4E 111C2-111C3 113D1 1193F 11941 11A84-11A89 11D46 11F02"]

/-- Characters that are part of the one after them. -/
def prepend : CharSet := prependedConcatenationMark.union otherPrepend

/-- Controls, invisible formats and separators, apart from the ends of lines. -/
def controls : CharSet :=
  (CharSet.unionAll [setOf [.lineSeparator, .paragraphSeparator, .control, .format],
    (setOf [.unassigned]).intersection defaultIgnorable]).difference
    (.unionAll [.ofTable ["A D"], joinControl, prependedConcatenationMark, graphemeExtend])

/-- Spacing marks that stand for themselves. -/
def standingMark : CharSet := .ofTable
  ["102B-102C 1038 1062-1064 1067-106D 1083 1087-108C 108F 109A-109C 1A61 1A63-1A64 AA7B AA7D",
   "11720-11721"]

/-- Marks with a width of their own that belong to the character before them. -/
def spacingMark : CharSet :=
  ((setOf [.spacingMark]).difference (extend.union standingMark)).union (.ofTable ["E33 EB3"])

/-- Korean syllables without a final consonant: every 28th of all. -/
def openSyllable : CharSet :=
  .ofPoints ((List.range 399).map fun index => 0xAC00 + 28 * index)

/-- Korean syllables with a final consonant. -/
def closedSyllable : CharSet := (CharSet.range 0xAC00 0xD7A3).difference openSyllable

/-- The classes of what a reader takes for one character. -/
def graphemeClasses : List (List String × CharSet) :=
  [(["CN", "Control"], controls),
   (["CR"], .single '\r'),
   (["LF"], .single '\n'),
   (["EX", "Extend"], extend),
   (["L"], .ofTable ["1100-115F A960-A97C"]),
   (["V"], .ofTable ["1160-11A7 D7B0-D7C6 16D63 16D67-16D6A"]),
   (["T"], .ofTable ["11A8-11FF D7CB-D7FB"]),
   (["LV"], openSyllable),
   (["LVT"], closedSyllable),
   (["PP", "Prepend"], prepend),
   (["RI", "Regional_Indicator"], regionalIndicator),
   (["SM", "SpacingMark"], spacingMark),
   (["ZWJ"], .ofTable ["200D"])]

/-! ### Words -/

/-- Characters that are part of the word around the one before them. -/
def wordExtend : CharSet := extend.union (setOf [.spacingMark])

/-- Formats inside of words. -/
def wordFormat : CharSet :=
  (setOf [.format]).difference
    (.unionAll [graphemeExtend, prependedConcatenationMark, .ofTable ["200B 200D"]])

/-- Letters of Hebrew. -/
def hebrewLetter : CharSet := (scriptSet "Hebr").intersection (setOf [.otherLetter])

/-- Letters of Katakana and what is written among them. -/
def katakana : CharSet := .ofTable
  ["3031-3035 309B-309C 30A0-30FA 30FC-30FF 31F0-31FF 32D0-32FE 3300-3357 FF66-FF9D 1AFF0-1AFF3",
   "1AFF5-1AFFB 1AFFD-1AFFE 1B000 1B120-1B122 1B155 1B164-1B167"]

/-- Letters of scripts that do not divide their words. -/
def undividedLetter : CharSet :=
  .unionAll [scriptSet "Thai", scriptSet "Laoo", .ofTable
    ["1000-102A 103F 1050-1055 105A-105D 1061 1065-1066 106E-1070 1075-1081 108E 1780-17B3 17D7",
     "17DC 1950-196D 1970-1974 1980-19AB 19B0-19C9 1A20-1A54 1AA7 A9E0-A9E4 A9E6-A9EF A9FA-A9FE",
     "AA60-AA76 AA7A AA7E-AAAF AAB1 AAB5-AAB6 AAB9-AABD AAC0 AAC2 AADB-AADD 11700-1171A",
     "11740-11746"]]

/-- Characters that count as letters of words without being alphabetic. -/
def letterLike : CharSet := .ofTable
  ["B8 2C2-2C5 2D2-2D7 2DE-2DF 2E5-2EB 2ED 2EF-2FF 55A-55C 55E 58A 5F3 70F A708-A716 A720-A721",
   "A789-A78A AB5B"]

/-- Letters of words. -/
def wordLetter : CharSet :=
  (Property.alphabetic.difference (.unionAll [ideographic, katakana, scriptSet "Hira", hebrewLetter,
    wordExtend, undividedLetter])).union letterLike

/-- Digits and what belongs to numbers. -/
def numeric : CharSet :=
  (setOf [.decimalNumber]).union (.ofTable ["600-605 66B 6DD 890-891 8E2 19DA 110BD 110CD"])

/-- The classes of words. -/
def wordClasses : List (List String × CharSet) :=
  [(["LE", "ALetter"], wordLetter),
   (["CR"], .single '\r'),
   (["LF"], .single '\n'),
   (["NL", "Newline"], .ofTable ["B-C 85 2028-2029"]),
   (["DQ", "Double_Quote"], .single '"'),
   (["SQ", "Single_Quote"], .single '\''),
   (["Extend"], wordExtend),
   (["EX", "ExtendNumLet"], .ofTable ["5F 202F 203F-2040 2054 FE33-FE34 FE4D-FE4F FF3F"]),
   (["FO", "Format"], wordFormat),
   (["HL", "Hebrew_Letter"], hebrewLetter),
   (["KA", "Katakana"], katakana),
   (["ML", "MidLetter"], .ofTable ["3A B7 387 55F 5F4 2027 FE13 FE55 FF1A"]),
   (["MN", "MidNum"], .ofTable ["2C 3B 37E 589 60C-60D 66C 7F8 2044 FE50 FE54 FF0C FF1B"]),
   (["MB", "MidNumLet"], .ofTable ["2E 2018-2019 2024 FE52 FF07 FF0E"]),
   (["NU", "Numeric"], numeric),
   (["RI", "Regional_Indicator"], regionalIndicator),
   (["WSegSpace"], .ofTable ["20 1680 2000-2006 2008-200A 205F 3000"]),
   (["ZWJ"], .ofTable ["200D"])]

/-! ### Sentences -/

/-- Characters that are part of the sentence around the one before them. -/
def sentenceExtend : CharSet :=
  .unionAll [graphemeExtend, setOf [.spacingMark], .ofTable ["200D"]]

/-- Georgian letters that have uppercase forms for headlines only. -/
def georgianLetter : CharSet := .ofTable ["10D0-10FA 10FD-10FF"]

/-- The Georgian forms for headlines. -/
def georgianHeadline : CharSet := .ofTable ["1C90-1CBA 1CBD-1CBF"]

/-- Lowercase letters of sentences. -/
def sentenceLower : CharSet := lowercase.difference (graphemeExtend.union georgianLetter)

/-- Uppercase letters of sentences. -/
def sentenceUpper : CharSet :=
  (uppercase.union (setOf [.titlecaseLetter])).difference georgianHeadline

/-- Letters of sentences without a case. -/
def caselessLetter : CharSet :=
  (Property.alphabetic.difference (.unionAll [sentenceLower, sentenceUpper, sentenceExtend])).union
    (.ofTable ["5F3"])

/-- Full stops that also end abbreviations. -/
def fullStop : CharSet := .ofTable ["2E 2024 FE52 FF0E"]

/-- Quotation marks that are no punctuation of their kind. -/
def otherClose : CharSet := .ofTable ["22 27 275B-2760 2E00-2E01 2E06-2E08 2E0B 1F676-1F678"]

/-- The classes of sentences. -/
def sentenceClasses : List (List String × CharSet) :=
  [(["AT", "ATerm"], fullStop),
   (["CL", "Close"],
    (setOf [.openPunctuation, .closePunctuation, .initialPunctuation, .finalPunctuation]).union
      otherClose),
   (["CR"], .single '\r'),
   (["LF"], .single '\n'),
   (["EX", "Extend"], sentenceExtend),
   (["FO", "Format"], wordFormat.union (.ofTable ["70F 200B"])),
   (["LO", "Lower"], sentenceLower),
   (["NU", "Numeric"], numeric.union (.ofTable ["66C"])),
   (["LE", "OLetter"], caselessLetter),
   (["SC", "SContinue"], .ofTable
     ["2C-2D 3A-3B 37E 55D 60C-60D 7F8 1802 1808 2013-2014 3001 FE10-FE11 FE13-FE14 FE31-FE32",
      "FE50-FE51 FE54-FE55 FE58 FE63 FF0C-FF0D FF1A-FF1B FF64"]),
   (["ST", "STerm"], sentenceTerminal.difference fullStop),
   (["SE", "Sep"], .ofTable ["85 2028-2029"]),
   (["SP", "Sp"], .ofTable ["9 B-C 20 A0 1680 2000-200A 202F 205F 3000"]),
   (["UP", "Upper"], sentenceUpper)]

end GraphValidation.Text.Segmentation
