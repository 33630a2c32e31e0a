/-
**Which texts are type expressions, and of which types.**

A type is written as its name, which its arguments may follow in angle brackets with commas between
them; around names, commas and brackets there may be blanks.  An expression is read in two steps:
its characters fall into words, and the words are those of exactly one type.

* `TypeRef.Spelled` — the grammar of type expressions.
* `TypeRef.words` — the words of a type.
* `TypeRef.readWords_words`, `TypeRef.words_of_readWords` — the words of a type are read as that
  type, and nothing else is.
* `TypeRef.scanned_of_spelled`, `TypeRef.spelled_of_scanned` — the characters of a type fall into
  its words, and no others do.
* `TypeRef.parse_spells` — **a type expression is read exactly if the grammar has it, as the type it
  is written for, and the written form of a type is among its expressions**.
-/
import GraphValidation.Proofs.NameCharacters

namespace GraphValidation

namespace TypeRef

/-! ### The grammar -/

/-- Characters that are a name. -/
def IsName (chars : List Char) : Prop := chars ≠ [] ∧ ∀ c ∈ chars, isNameChar c = true

/-- Characters without a meaning. -/
def IsGap (chars : List Char) : Prop := ∀ c ∈ chars, Text.isBlank c = true

mutual

/-- The texts that a type is written as: a name, or a name with arguments in angle brackets, with
any blanks around its words. -/
inductive Spelled : TypeRef → List Char → Prop
  | name {before chars after : List Char} (isBefore : IsGap before) (isName : IsName chars)
      (isAfter : IsGap after) : Spelled ⟨⟨String.ofList chars⟩, []⟩ (before ++ chars ++ after)
  | generic {before chars between inside after : List Char} {args : List TypeRef}
      (isBefore : IsGap before) (isName : IsName chars) (isBetween : IsGap between)
      (arguments : SpelledArgs args inside) (isAfter : IsGap after) :
      Spelled ⟨⟨String.ofList chars⟩, args⟩
        (before ++ chars ++ between ++ '<' :: inside ++ '>' :: after)

/-- The texts that arguments are written as: one or more types with commas between them. -/
inductive SpelledArgs : List TypeRef → List Char → Prop
  | one {arg : TypeRef} {text : List Char} (spelled : Spelled arg text) : SpelledArgs [arg] text
  | more {arg : TypeRef} {rest : List TypeRef} {text others : List Char}
      (spelled : Spelled arg text) (later : SpelledArgs rest others) :
      SpelledArgs (arg :: rest) (text ++ ',' :: others)

end

mutual

/-- All names of a type are names of type expressions. -/
def WellNamed : TypeRef → Prop
  | mk raw args => IsName raw.name.toList ∧ WellNamedArgs args

/-- All names of some types are names of type expressions. -/
def WellNamedArgs : List TypeRef → Prop
  | [] => True
  | arg :: rest => WellNamed arg ∧ WellNamedArgs rest

end

theorem IsGap.nil : IsGap [] := nofun

theorem IsGap.append {chars others : List Char} (first : IsGap chars) (second : IsGap others) :
    IsGap (chars ++ others) := fun c member =>
  (List.mem_append.mp member).elim (first c) (second c)

/-- Blanks may stand in front of a type. -/
theorem Spelled.before {type : TypeRef} {text gap : List Char} (spelled : Spelled type text)
    (isGap : IsGap gap) : Spelled type (gap ++ text) := by
  cases spelled with
  | name isBefore isName isAfter =>
    have longer := Spelled.name (isGap.append isBefore) isName isAfter
    simpa using longer
  | generic isBefore isName isBetween arguments isAfter =>
    have longer := Spelled.generic (isGap.append isBefore) isName isBetween arguments isAfter
    simpa using longer

/-- Blanks may stand behind a type. -/
theorem Spelled.after {type : TypeRef} {text gap : List Char} (spelled : Spelled type text)
    (isGap : IsGap gap) : Spelled type (text ++ gap) := by
  cases spelled with
  | name isBefore isName isAfter =>
    have longer := Spelled.name isBefore isName (isAfter.append isGap)
    simpa using longer
  | generic isBefore isName isBetween arguments isAfter =>
    have longer := Spelled.generic isBefore isName isBetween arguments (isAfter.append isGap)
    simpa using longer

/-! ### The written form -/

mutual

/-- The written form of a type is one of its texts. -/
theorem spelled_text : ∀ {type : TypeRef}, WellNamed type → Spelled type type.text.toList
  | mk raw [], wellNamed => by
    have whole := Spelled.name IsGap.nil wellNamed.1 IsGap.nil
    simpa [text] using whole
  | mk raw (arg :: rest), wellNamed => by
    obtain ⟨isName, isArg, areRest⟩ := wellNamed
    have arguments := spelledArgs_text (spelled_text isArg) areRest
    have whole := Spelled.generic IsGap.nil isName IsGap.nil arguments IsGap.nil
    simpa [text] using whole

/-- The written form of arguments, a blank behind each comma. -/
theorem spelledArgs_text : ∀ {rest : List TypeRef} {arg : TypeRef} {chars : List Char},
    Spelled arg chars → WellNamedArgs rest →
      SpelledArgs (arg :: rest) (chars ++ (restText rest).toList)
  | [], arg, chars, spelled, _ => by
    have whole := SpelledArgs.one spelled
    simpa [restText] using whole
  | next :: rest, arg, chars, spelled, wellNamed => by
    have isBlank : IsGap [' '] := by
      intro c member
      rw [List.mem_singleton] at member
      rw [member]
      decide
    have later := spelledArgs_text ((spelled_text wellNamed.1).before isBlank) wellNamed.2
    have whole := SpelledArgs.more spelled later
    simpa [restText] using whole

end

/-! ### The words of a type -/

mutual

/-- The words of a type. -/
def words : TypeRef → List Word
  | mk raw [] => [.name raw.name.toList]
  | mk raw (arg :: rest) =>
    .name raw.name.toList :: .openArgs :: (words arg ++ restWords rest)

/-- The words behind the first argument, up to the closing bracket. -/
def restWords : List TypeRef → List Word
  | [] => [.closeArgs]
  | arg :: rest => .comma :: (words arg ++ restWords rest)

end

/-- What has been read where the words of a type end: a name may still get arguments. -/
def whole : TypeRef → Progress
  | mk raw [] => .name raw
  | type => .type type

theorem type?_whole (type : TypeRef) : type.whole.type? = some type := by
  obtain ⟨raw, args⟩ := type
  cases args <;> rfl

/-- A whole type is the next argument of the innermost open type. -/
theorem readWords_comma (type : TypeRef) (frame : Open) (frames : List Open) (rest : List Word) :
    readWords type.whole (frame :: frames) (.comma :: rest)
      = readWords .expecting (⟨frame.raw, frame.args ++ [type]⟩ :: frames) rest := by
  obtain ⟨raw, args⟩ := type
  cases args <;> rfl

/-- A closing bracket makes the innermost open type whole. -/
theorem readWords_close (type : TypeRef) (frame : Open) (frames : List Open) (rest : List Word) :
    readWords type.whole (frame :: frames) (.closeArgs :: rest)
      = readWords (.type ⟨frame.raw, frame.args ++ [type]⟩) frames rest := by
  obtain ⟨raw, args⟩ := type
  cases args <;> rfl

mutual

/-- The words of a type are read as that type. -/
theorem readWords_words : ∀ (type : TypeRef) (frames : List Open) (rest : List Word),
    readWords .expecting frames (type.words ++ rest) = readWords type.whole frames rest
  | mk raw [], frames, rest => by
    rw [words, List.singleton_append, readWords, String.ofList_toList]
    rfl
  | mk raw (arg :: args), frames, rest => by
    rw [words, List.cons_append, readWords, String.ofList_toList, List.cons_append, readWords,
      List.append_assoc, readWords_words arg, readWords_restWords]
    rfl

/-- The words behind an argument are read as the arguments behind it. -/
theorem readWords_restWords : ∀ (args : List TypeRef) (arg : TypeRef) (raw : TypeKey)
    (done : List TypeRef) (frames : List Open) (rest : List Word),
    readWords arg.whole (⟨raw, done⟩ :: frames) (restWords args ++ rest)
      = readWords (.type ⟨raw, done ++ arg :: args⟩) frames rest
  | [], arg, raw, done, frames, rest => by
    rw [restWords, List.singleton_append, readWords_close]
  | next :: args, arg, raw, done, frames, rest => by
    rw [restWords, List.cons_append, readWords_comma, List.append_assoc, readWords_words next,
      readWords_restWords args next raw (done ++ [arg]) frames rest, List.append_assoc,
      List.singleton_append]

end

/-! ### Nothing else is read -/

/-- The words that have been read of a type whose arguments are open. -/
def Open.words (frame : Open) : List Word :=
  .name frame.raw.name.toList :: .openArgs :: frame.args.flatMap fun arg => arg.words ++ [.comma]

/-- The words that have been read of open types, of the outermost first. -/
def openWords : List Open → List Word
  | [] => []
  | frame :: outer => openWords outer ++ frame.words

/-- The words that have been read since. -/
def Progress.words : Progress → List Word
  | expecting => []
  | name raw => [.name raw.name.toList]
  | type whole => whole.words

theorem words_of_type? {progress : Progress} {type : TypeRef} (isType : progress.type? = some type) :
    progress.words = type.words := by
  cases progress with
  | expecting => cases isType
  | name raw =>
    cases isType
    rfl
  | type whole =>
    cases isType
    rfl

theorem words_arguments (arg type : TypeRef) (rest : List TypeRef) :
    arg.words ++ restWords (rest ++ [type])
      = (arg :: rest).flatMap (fun arg => arg.words ++ [.comma]) ++ (type.words ++ [.closeArgs]) := by
  induction rest generalizing arg with
  | nil => simp [restWords]
  | cons next rest ih =>
    rw [List.cons_append, restWords, ih next]
    simp

/-- A type with its last argument read and closed. -/
theorem words_concat (frame : Open) (type : TypeRef) :
    words ⟨frame.raw, frame.args ++ [type]⟩ = frame.words ++ (type.words ++ [.closeArgs]) := by
  obtain ⟨raw, args⟩ := frame
  cases args with
  | nil => rfl
  | cons arg rest =>
    rw [List.cons_append, words, words_arguments]
    rfl

/-- Words that are read as a type are, behind those that have been read of it, the words of that
type: each word that is read goes on with an open type, opens one or closes one. -/
theorem words_of_readWords {progress : Progress} {frames : List Open} {rest : List Word}
    {type : TypeRef} (reads : readWords progress frames rest = .ok type) :
    openWords frames ++ progress.words ++ rest = type.words := by
  fun_induction readWords progress frames rest with
  | case1 progress found isType =>
    cases reads
    rw [words_of_type? isType, List.append_nil]
    rfl
  | case4 frames rest text ih =>
    have whole := ih reads
    rw [Progress.words, String.toList_ofList, List.append_assoc, List.singleton_append] at whole
    rw [Progress.words, List.append_nil, whole]
  | case6 frames rest raw ih =>
    have whole := ih reads
    rw [openWords, Progress.words, List.append_nil, List.append_assoc] at whole
    rw [Progress.words, List.append_assoc, ← whole]
    rfl
  | case9 rest progress _ arg frame frames isArg _ _ ih =>
    have whole := ih reads
    rw [openWords, Progress.words, List.append_nil] at whole
    rw [openWords, words_of_type? isArg, ← whole]
    simp [Open.words]
  | case10 rest progress _ arg frame frames isArg _ _ ih =>
    have whole := ih reads
    rw [Progress.words, words_concat] at whole
    rw [openWords, words_of_type? isArg, ← whole]
    simp
  | case2 | case3 | case5 | case7 | case8 | case11 => cases reads

/-- Words are read as a type exactly if they are the words of that type. -/
theorem readWords_eq_ok {words : List Word} {type : TypeRef} :
    readWords .expecting [] words = .ok type ↔ words = type.words := by
  constructor
  · exact words_of_readWords
  · rintro rfl
    have reads := readWords_words type [] []
    rw [List.append_nil] at reads
    simp only [reads, readWords, type?_whole]

/-! ### The words of a text -/

/-- The words of some characters. -/
def scanned (chars : List Char) : List Word := (Word.scanFrom chars).1

/-- What follows a name does not go on with it. -/
def Stops (chars : List Char) : Prop := ∀ c, chars.head? = some c → isNameChar c = false

theorem isBlank_separators :
    Text.isBlank '<' = false ∧ Text.isBlank '>' = false ∧ Text.isBlank ',' = false := by decide

theorem scanned_blank {c : Char} (blank : Text.isBlank c = true) (rest : List Char) :
    scanned (c :: rest) = scanned rest := by
  simp [scanned, Word.scanFrom, isNameChar_of_isBlank blank, blank]

theorem scanned_gap {gap : List Char} (isGap : IsGap gap) (rest : List Char) :
    scanned (gap ++ rest) = scanned rest := by
  induction gap with
  | nil => rfl
  | cons c gap ih =>
    obtain ⟨blank, others⟩ := List.forall_mem_cons.mp isGap
    rw [List.cons_append, scanned_blank blank, ih others]

theorem scanned_open (rest : List Char) : scanned ('<' :: rest) = .openArgs :: scanned rest := by
  simp [scanned, Word.scanFrom, isNameChar_separators, isBlank_separators]

theorem scanned_close (rest : List Char) : scanned ('>' :: rest) = .closeArgs :: scanned rest := by
  simp [scanned, Word.scanFrom, isNameChar_separators, isBlank_separators]

theorem scanned_comma (rest : List Char) : scanned (',' :: rest) = .comma :: scanned rest := by
  simp [scanned, Word.scanFrom, isNameChar_separators, isBlank_separators]

/-- Behind a gap a name starts anew. -/
theorem push_apart (c : Char) (words : List Word) : Word.push c words false = .name [c] :: words := by
  cases words with
  | nil => rfl
  | cons word rest => cases word <;> rfl

/-- The last character of a name starts a word of its own. -/
theorem push_of_stops {rest : List Char} (stops : Stops rest) (c : Char) :
    Word.push c (Word.scanFrom rest).1 (Word.scanFrom rest).2 = .name [c] :: scanned rest := by
  cases rest with
  | nil => rfl
  | cons d rest =>
    have noName : isNameChar d = false := stops d rfl
    simp only [scanned, Word.scanFrom, noName, Bool.false_eq_true, if_false]
    split_ifs with blank
    · exact push_apart c _
    all_goals rfl

theorem scanFrom_name {name : List Char} (isName : IsName name) {rest : List Char}
    (stops : Stops rest) :
    Word.scanFrom (name ++ rest) = (.name name :: scanned rest, true) := by
  obtain ⟨nonempty, isNameChar⟩ := isName
  induction name with
  | nil => exact absurd rfl nonempty
  | cons c name ih =>
    obtain ⟨first, later⟩ := List.forall_mem_cons.mp isNameChar
    rw [List.cons_append, Word.scanFrom]
    simp only [first, if_true]
    cases name with
    | nil => rw [List.nil_append, push_of_stops stops]
    | cons d name =>
      rw [ih (List.cons_ne_nil d name) later]
      rfl

/-- A name is one word. -/
theorem scanned_name {name : List Char} (isName : IsName name) {rest : List Char}
    (stops : Stops rest) : scanned (name ++ rest) = .name name :: scanned rest := by
  rw [scanned, scanFrom_name isName stops]

/-- Blanks stop a name in front of what stops it. -/
theorem Stops.gap {gap rest : List Char} (isGap : IsGap gap) (stops : Stops rest) :
    Stops (gap ++ rest) := by
  cases gap with
  | nil => exact stops
  | cons c gap =>
    intro d isHead
    cases isHead
    exact isNameChar_of_isBlank (isGap _ List.mem_cons_self)

theorem stops_cons {c : Char} (noName : isNameChar c = false) (rest : List Char) :
    Stops (c :: rest) := by
  rintro d ⟨⟩
  exact noName

mutual

/-- The characters of a type fall into its words. -/
theorem scanned_of_spelled : ∀ {type : TypeRef} {text : List Char}, Spelled type text →
    ∀ {rest : List Char}, Stops rest → scanned (text ++ rest) = type.words ++ scanned rest
  | _, _, .name isBefore isName isAfter, rest, stops => by
    rw [List.append_assoc, List.append_assoc, scanned_gap isBefore,
      scanned_name isName (stops.gap isAfter), scanned_gap isAfter, words, String.toList_ofList]
    rfl
  | _, _, @Spelled.generic before chars between inside after _ isBefore isName isBetween arguments
      isAfter, rest, stops => by
    obtain ⟨arg, others, rfl, inWords⟩ := scanned_of_spelledArgs arguments (after ++ rest)
    have opens : Stops (between ++ '<' :: (inside ++ '>' :: (after ++ rest))) :=
      (stops_cons isNameChar_separators.1 _).gap isBetween
    have shape : before ++ chars ++ between ++ '<' :: inside ++ '>' :: after ++ rest
        = before ++ (chars ++ (between ++ '<' :: (inside ++ '>' :: (after ++ rest)))) := by
      simp
    rw [shape, scanned_gap isBefore, scanned_name isName opens, scanned_gap isBetween,
      scanned_open, inWords, scanned_gap isAfter, words, String.toList_ofList]
    simp

/-- The characters of arguments fall into their words. -/
theorem scanned_of_spelledArgs : ∀ {args : List TypeRef} {text : List Char},
    SpelledArgs args text → ∀ (rest : List Char), ∃ arg others, args = arg :: others
      ∧ scanned (text ++ '>' :: rest) = arg.words ++ restWords others ++ scanned rest
  | _, _, @SpelledArgs.one arg _ spelled, rest => by
    refine ⟨arg, [], rfl, ?_⟩
    rw [scanned_of_spelled spelled (stops_cons isNameChar_separators.2.1 rest), scanned_close,
      restWords]
    simp
  | _, _, @SpelledArgs.more arg _ text others spelled later, rest => by
    obtain ⟨next, following, rfl, inWords⟩ := scanned_of_spelledArgs later rest
    have shape : text ++ ',' :: others ++ '>' :: rest = text ++ ',' :: (others ++ '>' :: rest) := by
      simp
    refine ⟨arg, next :: following, rfl, ?_⟩
    rw [shape, scanned_of_spelled spelled (stops_cons isNameChar_separators.2.2 _), scanned_comma,
      inWords, restWords]
    simp

end

/-! ### The characters of words -/

/-- The characters that are a word. -/
def Word.Lexeme : Word → List Char → Prop
  | name text, chars => chars = text ∧ IsName text
  | openArgs, chars => chars = ['<']
  | closeArgs, chars => chars = ['>']
  | comma, chars => chars = [',']
  | other c, chars => chars = [c]

/-- A character joins the name that comes next without a gap, or is a name alone. -/
theorem push_cases (c : Char) (words : List Word) (adjacent : Bool) :
    (∃ text rest, words = .name text :: rest ∧ adjacent = true
        ∧ Word.push c words adjacent = .name (c :: text) :: rest)
      ∨ Word.push c words adjacent = .name [c] :: words := by
  cases adjacent with
  | false => exact .inr (push_apart c words)
  | true =>
    cases words with
    | nil => exact .inr rfl
    | cons word rest =>
      cases word with
      | name text => exact .inl ⟨text, rest, rfl, rfl, rfl⟩
      | openArgs | closeArgs | comma | other => exact .inr rfl

/-- The first word stands in front of the characters of the others, behind blanks unless it starts
at once. -/
theorem split_of_scanFrom {chars : List Char} {word : Word} {more : List Word} {adjacent : Bool}
    (scans : Word.scanFrom chars = (word :: more, adjacent)) :
    ∃ gap lexeme rest, chars = gap ++ lexeme ++ rest ∧ IsGap gap ∧ (adjacent = true → gap = [])
      ∧ word.Lexeme lexeme ∧ scanned rest = more := by
  induction chars generalizing word more adjacent with
  | nil => cases scans
  | cons c rest ih =>
    have single : ∀ sign : Word, sign.Lexeme [c] →
        (sign :: (Word.scanFrom rest).1, true) = (word :: more, adjacent) →
        ∃ gap lexeme tail, c :: rest = gap ++ lexeme ++ tail ∧ IsGap gap
          ∧ (adjacent = true → gap = []) ∧ word.Lexeme lexeme ∧ scanned tail = more := by
      rintro sign isSign ⟨⟩
      exact ⟨[], [c], rest, rfl, IsGap.nil, fun _ => rfl, isSign, rfl⟩
    rw [Word.scanFrom] at scans
    simp only at scans
    split_ifs at scans with isName blank opens closes comma
    · rcases push_cases c (Word.scanFrom rest).1 (Word.scanFrom rest).2
        with ⟨text, others, words, joined, pushed⟩ | pushed
      · obtain ⟨gap, lexeme, tail, rfl, -, noGap, ⟨rfl, isText⟩, scannedTail⟩ :=
          ih (Prod.ext words joined)
        rw [pushed] at scans
        cases scans
        rw [noGap rfl]
        refine ⟨[], c :: lexeme, tail, rfl, IsGap.nil, fun _ => rfl, ⟨rfl, nofun, ?_⟩, scannedTail⟩
        exact List.forall_mem_cons.mpr ⟨isName, isText.2⟩
      · rw [pushed] at scans
        exact single (.name [c]) ⟨rfl, nofun, by simpa using isName⟩ scans
    · obtain ⟨words, rfl⟩ := Prod.ext_iff.mp scans
      have behind : Word.scanFrom rest = (word :: more, (Word.scanFrom rest).2) :=
        Prod.ext words rfl
      obtain ⟨gap, lexeme, tail, rfl, isGap, -, isLexeme, scannedTail⟩ := ih behind
      exact ⟨c :: gap, lexeme, tail, rfl, List.forall_mem_cons.mpr ⟨blank, isGap⟩, nofun, isLexeme,
        scannedTail⟩
    · exact single .openArgs (congrArg ([·]) opens) scans
    · exact single .closeArgs (congrArg ([·]) closes) scans
    · exact single .comma (congrArg ([·]) comma) scans
    · exact single (.other c) rfl scans

theorem split_of_scanned {chars : List Char} {word : Word} {more : List Word}
    (scans : scanned chars = word :: more) :
    ∃ gap lexeme rest, chars = gap ++ lexeme ++ rest ∧ IsGap gap ∧ word.Lexeme lexeme
      ∧ scanned rest = more := by
  obtain ⟨gap, lexeme, rest, shape, isGap, -, isLexeme, scannedRest⟩ :=
    split_of_scanFrom (Prod.ext scans rfl)
  exact ⟨gap, lexeme, rest, shape, isGap, isLexeme, scannedRest⟩

/-- Where there are no words, there are blanks only. -/
theorem isGap_of_scanned {chars : List Char} (scans : scanned chars = []) : IsGap chars := by
  induction chars with
  | nil => exact IsGap.nil
  | cons c rest ih =>
    rw [scanned, Word.scanFrom] at scans
    simp only at scans
    split_ifs at scans with isName blank opens closes comma
    · rcases push_cases c (Word.scanFrom rest).1 (Word.scanFrom rest).2
        with ⟨_, _, -, -, pushed⟩ | pushed
      all_goals
        rw [pushed] at scans
        cases scans
    · exact List.forall_mem_cons.mpr ⟨blank, ih scans⟩

mutual

/-- Characters that fall into the words of a type and others start with a text of that type. -/
theorem spelled_of_scanned : ∀ {type : TypeRef} {chars : List Char} {more : List Word},
    scanned chars = type.words ++ more →
      ∃ text rest, chars = text ++ rest ∧ Spelled type text ∧ scanned rest = more
  | mk raw [], chars, more, scans => by
    obtain ⟨gap, lexeme, rest, rfl, isGap, ⟨rfl, isName⟩, scannedRest⟩ := split_of_scanned scans
    have whole := Spelled.name isGap isName IsGap.nil
    rw [String.ofList_toList, List.append_nil] at whole
    exact ⟨_, rest, rfl, whole, scannedRest⟩
  | mk raw (arg :: args), chars, more, scans => by
    rw [words, List.cons_append] at scans
    obtain ⟨before, lexeme, rest, rfl, isBefore, ⟨rfl, isName⟩, scannedRest⟩ :=
      split_of_scanned scans
    rw [List.cons_append, List.append_assoc] at scannedRest
    obtain ⟨between, _, rest, rfl, isBetween, rfl, scannedArgs⟩ := split_of_scanned scannedRest
    obtain ⟨text, rest, rfl, spelled, scannedRest⟩ := spelled_of_scanned scannedArgs
    obtain ⟨inside, rest, shape, arguments, scannedRest⟩ :=
      spelledArgs_of_scanned spelled scannedRest
    have whole := Spelled.generic isBefore isName isBetween arguments IsGap.nil
    rw [String.ofList_toList] at whole
    refine ⟨_, rest, ?_, whole, scannedRest⟩
    simp [shape]

/-- A text of an argument and characters that fall into the words of the arguments behind it are a
text of them all, up to the closing bracket. -/
theorem spelledArgs_of_scanned : ∀ {args : List TypeRef} {arg : TypeRef} {text chars : List Char}
    {more : List Word}, Spelled arg text → scanned chars = restWords args ++ more →
      ∃ inside rest, text ++ chars = inside ++ '>' :: rest ∧ SpelledArgs (arg :: args) inside
        ∧ scanned rest = more
  | [], arg, text, chars, more, spelled, scans => by
    rw [restWords, List.singleton_append] at scans
    obtain ⟨gap, _, rest, rfl, isGap, rfl, scannedRest⟩ := split_of_scanned scans
    refine ⟨text ++ gap, rest, ?_, .one (spelled.after isGap), scannedRest⟩
    simp
  | next :: args, arg, text, chars, more, spelled, scans => by
    rw [restWords, List.cons_append, List.append_assoc] at scans
    obtain ⟨gap, _, rest, rfl, isGap, rfl, scannedRest⟩ := split_of_scanned scans
    obtain ⟨nextText, rest, rfl, nextSpelled, scannedRest⟩ := spelled_of_scanned scannedRest
    obtain ⟨inside, rest, shape, arguments, scannedRest⟩ :=
      spelledArgs_of_scanned nextSpelled scannedRest
    refine ⟨_, rest, ?_, .more (spelled.after isGap) arguments, scannedRest⟩
    simp [shape]

end

/-- A text falls into the words of a type exactly if the type is written so. -/
theorem scanned_eq_words {type : TypeRef} {text : List Char} :
    scanned text = type.words ↔ Spelled type text := by
  constructor
  · intro scans
    rw [← List.append_nil type.words] at scans
    obtain ⟨front, rest, rfl, spelled, noWords⟩ := spelled_of_scanned scans
    exact spelled.after (isGap_of_scanned noWords)
  · intro spelled
    have ends : Stops [] := nofun
    have scans := scanned_of_spelled spelled ends
    rwa [List.append_nil, show scanned [] = [] from rfl, List.append_nil] at scans

/-! ### Reading -/

/-- A text is read as a type exactly if the type is written so. -/
theorem parse_eq_ok {text : String} {type : TypeRef} :
    parse text = .ok type ↔ Spelled type text.toList := by
  rw [← scanned_eq_words, ← readWords_eq_ok, scanned, parse, Word.scan]
  cases readWords .expecting [] (Word.scanFrom text.toList).1 with
  | ok found => simp
  | error fault => simp

/-- **A type expression is read exactly if the grammar has it, and as the type that it is written
for**; any other text is an invalid type expression.  The written form of a type whose names are
names of type expressions is read as that type, and so is every text that differs from it in the
blanks around names, commas and angle brackets only. -/
theorem parse_spells :
    (∀ type, WellNamed type → parse type.text = .ok type)
      ∧ (∀ type text, Spelled type text.toList → parse text = .ok type)
      ∧ ∀ text, (∃ type, parse text = .ok type ∧ Spelled type text.toList)
          ∨ (¬ ∃ type, Spelled type text.toList)
            ∧ ∃ fault, parse text = .error (.invalidTypeExpression text fault) := by
  refine ⟨fun type wellNamed => parse_eq_ok.mpr (spelled_text wellNamed),
    fun type text => parse_eq_ok.mpr, fun text => ?_⟩
  cases reads : parse text with
  | ok type => exact .inl ⟨type, rfl, parse_eq_ok.mp reads⟩
  | error error =>
    refine .inr ⟨?_, ?_⟩
    · rintro ⟨type, spelled⟩
      rw [parse_eq_ok.mpr spelled] at reads
      cases reads
    · unfold parse at reads
      split at reads
      · cases reads
      · rename_i fault found
        cases reads
        exact ⟨fault, rfl⟩

end TypeRef

end GraphValidation
