/-
**Names of character properties.**

A pattern names a class of characters by a property that characters have or have not, by a general
category, by a script, or by a property with a value.  Names are compared without regard to case,
blanks, hyphens, underscores and an "is" in front.

* `namedSet?` — the set of a name alone.
* `valuedSet?` — the set of a property with a value.
-/
import GraphValidation.Text.Age
import GraphValidation.Text.Property
import GraphValidation.Text.Script
import GraphValidation.Text.Segmentation

namespace GraphValidation.Pattern

open Text (CharSet Category)
open Text.Property

/-- A name without what makes no difference.  The "is" counts only at the very front. -/
def normalizeName (name : List Char) : String :=
  let hasIs := (name.take 2).map Char.toLower == ['i', 's']
  let rest := if hasIs then name.drop 2 else name
  let kept := (rest.filter fun c => c.toNat < 128 && c != ' ' && c != '_' && c != '-').map
    Char.toLower
  if hasIs && kept == ['c'] then "isc" else String.ofList kept

/-- What is listed under a name that makes no difference from the given one. -/
def named? {α : Type} (entries : List (List String × α)) (name : String) : Option α :=
  (entries.find? fun entry =>
    entry.1.any fun other => normalizeName other.toList == name).map (·.2)

/-! ### Properties that characters have or have not -/

/-- Letters, words and identifiers. -/
def letterProperties : List (List String × CharSet) :=
  [(["alphabetic", "alpha"], alphabetic),
   (["otheralphabetic", "oalpha"], otherAlphabetic),
   (["lowercase", "lower"], lowercase),
   (["otherlowercase", "olower"], otherLowercase),
   (["uppercase", "upper"], uppercase),
   (["otheruppercase", "oupper"], otherUppercase),
   (["cased"], cased),
   (["caseignorable", "ci"], caseIgnorable),
   (["changeswhenlowercased", "cwl"], changesWhenLowercased),
   (["changeswhenuppercased", "cwu"], changesWhenUppercased),
   (["changeswhentitlecased", "cwt"], changesWhenTitlecased),
   (["changeswhencasemapped", "cwcm"], changesWhenCasemapped),
   (["changeswhencasefolded", "cwcf"], changesWhenCasefolded),
   (["softdotted", "sd"], softDotted),
   (["joincontrol", "joinc"], joinControl),
   (["idstart", "ids"], idStart),
   (["otheridstart", "oids"], otherIdStart),
   (["xidstart", "xids"], xidStart),
   (["idcontinue", "idc"], idContinue),
   (["otheridcontinue", "oidc"], otherIdContinue),
   (["xidcontinue", "xidc"], xidContinue),
   (["idcompatmathstart"], idCompatMathStart),
   (["idcompatmathcontinue"], idCompatMathContinue),
   (["patternsyntax", "patsyn"], patternSyntax),
   (["patternwhitespace", "patws"], patternWhiteSpace)]

/-- Digits, symbols, punctuation and marks. -/
def signProperties : List (List String × CharSet) :=
  [(["asciihexdigit", "ahex"], asciiHexDigit),
   (["hexdigit", "hex"], hexDigit),
   (["math"], math),
   (["othermath", "omath"], otherMath),
   (["dash"], dash),
   (["hyphen"], hyphen),
   (["quotationmark", "qmark"], quotationMark),
   (["terminalpunctuation", "term"], terminalPunctuation),
   (["sentenceterminal", "sterm"], sentenceTerminal),
   (["whitespace", "wspace", "space"], whiteSpace),
   (["diacritic", "dia"], diacritic),
   (["extender", "ext"], extender),
   (["modifiercombiningmark", "mcm"], modifierCombiningMark),
   (["prependedconcatenationmark", "pcm"], prependedConcatenationMark),
   (["graphemebase", "grbase"], graphemeBase),
   (["graphemeextend", "grext"], graphemeExtend),
   (["othergraphemeextend", "ogrext"], otherGraphemeExtend),
   (["graphemelink", "grlink"], graphemeLink),
   (["variationselector", "vs"], variationSelector)]

/-- Ideographs, emoji, directions and code points without a shape. -/
def otherProperties : List (List String × CharSet) :=
  [(["ideographic", "ideo"], ideographic),
   (["unifiedideograph", "uideo"], unifiedIdeograph),
   (["radical"], radical),
   (["idsunaryoperator", "idsu"], idsUnaryOperator),
   (["idsbinaryoperator", "idsb"], idsBinaryOperator),
   (["idstrinaryoperator", "idst"], idsTrinaryOperator),
   (["emoji"], emoji),
   (["emojipresentation", "epres"], emojiPresentation),
   (["emojimodifier", "emod"], emojiModifier),
   (["emojimodifierbase", "ebase"], emojiModifierBase),
   (["emojicomponent", "ecomp"], emojiComponent),
   (["extendedpictographic", "extpict"], extendedPictographic),
   (["regionalindicator", "ri"], regionalIndicator),
   (["bidicontrol", "bidic"], bidiControl),
   (["bidimirrored", "bidim"], bidiMirrored),
   (["deprecated", "dep"], deprecated),
   (["logicalorderexception", "loe"], logicalOrderException),
   (["noncharactercodepoint", "nchar"], noncharacter),
   (["defaultignorablecodepoint", "di"], defaultIgnorable),
   (["otherdefaultignorablecodepoint", "odi"], otherDefaultIgnorable)]

/-- The set of a property that characters have or have not. -/
def booleanSet? (name : String) : Option CharSet :=
  named? (letterProperties ++ signProperties ++ otherProperties) name

/-! ### General categories and scripts -/

/-- The names of general categories and of their groups.  Surrogates are no characters, so that
their category has no name. -/
def categoryGroups : List (List String × List Category) :=
  [(["l", "letter"], Category.letters),
   (["lc", "casedletter"], [.uppercaseLetter, .lowercaseLetter, .titlecaseLetter]),
   (["m", "mark", "combiningmark"], Category.marks),
   (["n", "number"], Category.numbers),
   (["p", "punctuation", "punct"], [.connectorPunctuation, .dashPunctuation, .openPunctuation,
      .closePunctuation, .initialPunctuation, .finalPunctuation, .otherPunctuation]),
   (["s", "symbol"], [.mathSymbol, .currencySymbol, .modifierSymbol, .otherSymbol]),
   (["z", "separator"], [.spaceSeparator, .lineSeparator, .paragraphSeparator]),
   (["c", "other"], [.control, .format, .privateUse, .unassigned]),
   (["lu", "uppercaseletter"], [.uppercaseLetter]),
   (["ll", "lowercaseletter"], [.lowercaseLetter]),
   (["lt", "titlecaseletter"], [.titlecaseLetter]),
   (["lm", "modifierletter"], [.modifierLetter]),
   (["lo", "otherletter"], [.otherLetter]),
   (["mn", "nonspacingmark"], [.nonspacingMark]),
   (["mc", "spacingmark"], [.spacingMark]),
   (["me", "enclosingmark"], [.enclosingMark]),
   (["nd", "decimalnumber", "digit"], [.decimalNumber]),
   (["nl", "letternumber"], [.letterNumber]),
   (["no", "othernumber"], [.otherNumber]),
   (["pc", "connectorpunctuation"], [.connectorPunctuation]),
   (["pd", "dashpunctuation"], [.dashPunctuation]),
   (["ps", "openpunctuation"], [.openPunctuation]),
   (["pe", "closepunctuation"], [.closePunctuation]),
   (["pi", "initialpunctuation"], [.initialPunctuation]),
   (["pf", "finalpunctuation"], [.finalPunctuation]),
   (["po", "otherpunctuation"], [.otherPunctuation]),
   (["sm", "mathsymbol"], [.mathSymbol]),
   (["sc", "currencysymbol"], [.currencySymbol]),
   (["sk", "modifiersymbol"], [.modifierSymbol]),
   (["so", "othersymbol"], [.otherSymbol]),
   (["zs", "spaceseparator"], [.spaceSeparator]),
   (["zl", "lineseparator"], [.lineSeparator]),
   (["zp", "paragraphseparator"], [.paragraphSeparator]),
   (["cc", "control", "cntrl"], [.control]),
   (["cf", "format"], [.format]),
   (["co", "privateuse"], [.privateUse]),
   (["cn", "unassigned"], [.unassigned])]

/-- The set of a general category. -/
def categorySet? (name : String) : Option CharSet :=
  if name == "any" then some .all
  else if name == "assigned" then some (Category.set .unassigned).complement
  else if name == "ascii" then some (.range 0 127)
  else (named? categoryGroups name).map Category.setOf

/-- The four letters of the script with a name. -/
def scriptLetters? (name : String) : Option String :=
  named? (Text.scriptNames.map fun script => (script.1 :: script.2, script.1)) name

/-- The set of a name: a property, a general category or a script. -/
def namedSet? (name : List Char) : Option CharSet :=
  let name := normalizeName name
  ((booleanSet? name).or (categorySet? name)).or ((scriptLetters? name).map Text.scriptSet)

/-! ### Properties with a value -/

/-- The edition with a name such as `6.1` or `V6_1`. -/
def edition? (name : String) : Option String :=
  (Text.editions.find? fun entry =>
    entry.1 == name || 'v' :: entry.1.toList.filter (· != '.') == name.toList).map (·.1)

/-- The set of a property with a value. -/
def valuedSet? (property value : List Char) : Option CharSet :=
  let value := normalizeName value
  match normalizeName property with
  | "generalcategory" | "gc" => categorySet? value
  | "script" | "sc" => (scriptLetters? value).map Text.scriptSet
  | "scriptextensions" | "scx" => (scriptLetters? value).map Text.extendedScriptSet
  | "age" => (edition? value).bind Text.ageSet?
  | "graphemeclusterbreak" | "gcb" => named? Text.Segmentation.graphemeClasses value
  | "wordbreak" | "wb" => named? Text.Segmentation.wordClasses value
  | "sentencebreak" | "sb" => named? Text.Segmentation.sentenceClasses value
  | _ => none

end GraphValidation.Pattern
