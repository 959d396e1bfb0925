import AdaFront.Proofs.Covering
import AdaFront.Proofs.Identifiers

namespace AdaFront

open AdaFront.Tree (Lexeme)

namespace Text

/-- The parts of a text between its blanks. -/
def solids (text : List Char) : List (List Char) :=
  (text.splitOnP isBlank).filter (!·.isEmpty)

@[simp] theorem solids_nil : solids [] = [] := rfl

/-- A blank parts what stands before it from what stands behind it. -/
theorem solids_append_blank {c : Char} (blank : isBlank c = true) (before behind : List Char) :
    solids (before ++ c :: behind) = solids before ++ solids behind := by
  rw [solids, List.splitOnP_append_cons before behind blank, List.filter_append, solids, solids]

theorem solids_cons_blank {c : Char} (blank : isBlank c = true) (rest : List Char) :
    solids (c :: rest) = solids rest :=
  solids_append_blank blank [] rest

theorem solids_append {behind : List Char} (cut : ∀ c ∈ behind.head?, isBlank c = true)
    (before : List Char) : solids (before ++ behind) = solids before ++ solids behind := by
  cases behind with
  | nil => rw [List.append_nil, solids_nil, List.append_nil]
  | cons c behind => rw [solids_append_blank (cut c rfl), solids_cons_blank (cut c rfl)]

theorem solids_blanks {blanks : List Char} (each : ∀ c ∈ blanks, isBlank c = true) (rest : List Char) :
    solids (blanks ++ rest) = solids rest := by
  induction blanks with
  | nil => rfl
  | cons c blanks ih =>
    obtain ⟨first, later⟩ := List.forall_mem_cons.mp each
    rw [List.cons_append, solids_cons_blank first, ih later]

theorem solids_word {word : List Char} (present : word ≠ []) (solid : ∀ c ∈ word, isBlank c = false) :
    solids word = [word] := by
  have kept : (!word.isEmpty) = true := by
    rw [List.isEmpty_eq_false_iff.mpr present]
    rfl
  rw [solids, List.splitOnP_eq_singleton solid, List.filter_cons, if_pos kept, List.filter_nil]

/-- The parts hold all of a text but its blanks. -/
theorem flatten_solids (text : List Char) : (solids text).flatten = text.filter isSolid := by
  rw [solids, List.flatten_filter_not_isEmpty]
  induction text with
  | nil => rfl
  | cons c rest ih =>
    rw [List.splitOnP_cons_eq_if_modifyHead, List.filter_cons, ← ih, isSolid]
    cases isBlank c with
    | true => rfl
    | false =>
      cases parts : rest.splitOnP isBlank with
      | nil => exact absurd parts (List.splitOnP_ne_nil _ _)
      | cons => rfl

theorem solids_eq_nil {text : List Char} (nothing : solids text = []) : ∀ c ∈ text, isBlank c = true := by
  have none := flatten_solids text
  rw [nothing] at none
  intro c member
  have apart := List.filter_eq_nil_iff.mp none.symm c member
  rwa [isSolid, Bool.not_eq_true, Bool.not_eq_false'] at apart

/-- The first part of a text stands behind blanks, and before a blank or at the end. -/
theorem exists_of_solids_eq_cons {text word : List Char} {words : List (List Char)}
    (begins : solids text = word :: words) :
    ∃ blanks rest, text = blanks ++ (word ++ rest) ∧ (∀ c ∈ blanks, isBlank c = true) ∧
      (∀ c ∈ rest.head?, isBlank c = true) ∧ solids rest = words := by
  have blank : ∀ c ∈ text.takeWhile isBlank, isBlank c = true := fun c => List.mem_takeWhile_imp
  have halves : text.takeWhile isBlank ++ text.dropWhile isBlank = text := List.takeWhile_append_dropWhile
  have behind : ∀ c ∈ (text.dropWhile isBlank).head?, isSolid c = true := by
    intro c first
    have solid := List.head?_dropWhile_not isBlank text
    rw [Option.mem_def.mp first] at solid
    exact congrArg not solid
  generalize text.takeWhile isBlank = blanks at blank halves
  generalize text.dropWhile isBlank = later at halves behind
  subst halves
  rw [solids_blanks blank] at begins
  have solid : ∀ c ∈ later.takeWhile isSolid, isBlank c = false := by
    intro c member
    have solid := List.mem_takeWhile_imp member
    rwa [isSolid, Bool.not_eq_true'] at solid
  have cut : ∀ c ∈ (later.dropWhile isSolid).head?, isBlank c = true := by
    intro c first
    have solid := List.head?_dropWhile_not isSolid later
    rw [Option.mem_def.mp first] at solid
    exact (Bool.not_eq_false' _).mp solid
  have present : later.takeWhile isSolid ≠ [] := by
    cases later with
    | nil => cases begins
    | cons c later =>
      rw [List.takeWhile_cons_of_pos (behind c rfl)]
      exact List.cons_ne_nil _ _
  rw [← List.takeWhile_append_dropWhile (p := isSolid) (l := later), solids_append cut,
    solids_word present solid] at begins
  -- The text behind its blanks is the longest solid beginning and what is left, so that is the first part.
  obtain ⟨same, rest⟩ := List.cons.inj begins
  refine ⟨blanks, _, ?_, blank, cut, rest⟩
  rw [← same, List.takeWhile_append_dropWhile]

theorem splitOnP_map_lower (text : List Char) :
    (text.map lower).splitOnP isBlank = (text.splitOnP isBlank).map (List.map lower) := by
  induction text with
  | nil => rfl
  | cons c rest ih =>
    rw [List.map_cons, List.splitOnP_cons_eq_if_modifyHead, List.splitOnP_cons_eq_if_modifyHead,
      isBlank_lower, ih]
    cases isBlank c with
    | true => rfl
    | false =>
      cases parts : rest.splitOnP isBlank with
      | nil => exact absurd parts (List.splitOnP_ne_nil _ _)
      | cons => rfl

theorem solids_map_lower (text : List Char) :
    solids (text.map lower) = (solids text).map (List.map lower) := by
  rw [solids, splitOnP_map_lower, List.filter_map, solids]
  congr 2
  funext part
  exact congrArg not List.isEmpty_map

theorem solids_withoutReturn (line : List Char) : solids (withoutReturn line) = solids line := by
  unfold withoutReturn
  split
  next last =>
    obtain ⟨before, rfl⟩ := List.getLast?_eq_some_iff.mp last
    rw [List.dropLast_concat, solids_append_blank (by decide), solids_nil, List.append_nil]
  next => rfl

/-- Falling into lines takes nothing but blanks from a text, and parts it only where blanks stand. -/
theorem solids_linesFrom (pending rest : List Char) :
    solids ((linesFrom pending rest).flatMap fun line => line.toList ++ ['\n']) =
      solids (pending.reverse ++ rest) := by
  have feed : isBlank '\n' = true := by decide
  -- The line feed that ends a line is a blank, and so is the carriage return that is dropped before it.
  induction rest generalizing pending with
  | nil =>
    rw [linesFrom]
    cases pending with
    | nil => rfl
    | cons c pending =>
      rw [List.isEmpty_cons, if_neg Bool.false_ne_true, List.flatMap_singleton, String.toList_ofList,
        solids_append_blank feed, solids_nil, List.append_nil, List.append_nil]
  | cons c rest ih =>
    rw [linesFrom]
    split
    next same =>
      subst same
      rw [List.flatMap_cons, String.toList_ofList, List.append_assoc, List.singleton_append,
        solids_append_blank feed, solids_append_blank feed, solids_withoutReturn, ih, List.reverse_nil,
        List.nil_append]
    next => rw [ih, List.reverse_cons, List.append_assoc, List.singleton_append]

theorem solids_lines (source : String) :
    solids ((lines source).flatMap fun line => line.toList ++ ['\n']) = solids source.toList :=
  solids_linesFrom [] source.toList

end Text

theorem HasWordKind.wordKind_eq {word : String} {kind : Kind} (atWord : HasWordKind word kind) :
    AdaFront.wordKind word = kind := by
  rcases atWord with ⟨keyword, spelled⟩ | ⟨rfl, none⟩
  · rw [AdaFront.wordKind, Kind.ofSpelling?_of_spelling kind word spelled]
    exact if_pos keyword
  · exact HasWordKind.wordKind (Or.inr ⟨rfl, none⟩)

namespace Piece

/-- The token that a text spells. -/
def spelled? (text : String) : Option Piece :=
  (Kind.ofSpelling? text).map (token · text)

/-- The piece that a symbol begins. -/
def ofSymbol (c : Char) (next : Option Char) : Piece :=
  ((next.bind fun next => spelled? (String.ofList [c, next])).or (spelled? (String.singleton c))).getD (unknown c)

def ofWord (word : String) : Piece :=
  token (wordKind word) word

/-- The piece that a text begins with. -/
def first? : List Char → Option Piece
  | [] => none
  | c :: rest => some <|
    if Text.isBlank c then blank c
    else if c.isDigit then token .integer (String.ofList ((c :: rest).takeWhile Char.isDigit))
    else if Text.isLetter c then ofWord (String.ofList ((c :: rest).takeWhile isWordCharacter))
    else ofSymbol c rest.head?

variable {c : Char} {rest run : List Char}

theorem takeWhile_run {inClass : Char → Bool} (each : ∀ c ∈ run, inClass c = true)
    (behind : ∀ c ∈ rest.head?, inClass c = false) : (run ++ rest).takeWhile inClass = run := by
  rw [List.takeWhile_append_of_pos each]
  cases rest with
  | nil => exact List.append_nil run
  | cons c rest =>
    rw [List.takeWhile_cons, if_neg (Bool.eq_false_iff.mp (behind c rfl)), List.append_nil]

theorem first?_symbol (symbol : IsSymbol c) : first? (c :: rest) = some (ofSymbol c rest.head?) := by
  obtain ⟨blank, digit, letter⟩ := symbol
  rw [first?, blank, digit, letter]
  rfl

theorem spelled?_of_spelling {kind : Kind} {text : String} (spelled : kind.spelling? = some text) :
    spelled? text = some (token kind text) := by
  rw [spelled?, Kind.ofSpelling?_of_spelling kind text spelled, Option.map_some]

theorem spelled?_eq_none {text : String} (none : ∀ kind : Kind, kind.spelling? ≠ some text) :
    spelled? text = Option.none := by
  rw [spelled?, Kind.ofSpelling?_eq_none.mpr none, Option.map_none]

theorem ofSymbol_of_no_pair {next : Option Char}
    (noPair : ∀ c' ∈ next, ∀ pair : Kind, pair.spelling? ≠ some (String.ofList [c, c'])) :
    ofSymbol c next = (spelled? (String.singleton c)).getD (unknown c) := by
  cases next with
  | none => rfl
  | some c' => rw [ofSymbol, Option.bind_some, spelled?_eq_none (noPair c' rfl), Option.none_or]

end Piece

namespace Scans

/-- A text that falls into pieces begins with the first of them. -/
theorem uncons {text : List Char} {pieces : List Piece} (scans : Scans text pieces) :
    text = [] ∧ pieces = [] ∨ ∃ piece rest later, text = piece.chars ++ rest ∧ pieces = piece :: later ∧
      Piece.first? text = some piece ∧ Scans rest later := by
  cases scans with
  | done => exact Or.inl ⟨rfl, rfl⟩
  | @blank c rest pieces blank scans =>
    refine Or.inr ⟨_, rest, pieces, rfl, rfl, ?_, scans⟩
    rw [Piece.first?, if_pos blank]
  | @number digits rest pieces present each behind scans =>
    refine Or.inr ⟨_, rest, pieces, ?_, rfl, ?_, scans⟩
    · rw [Piece.chars, String.toList_ofList]
    obtain ⟨c, digits, rfl⟩ := List.exists_cons_of_ne_nil present
    have digit := each c List.mem_cons_self
    have solid := Text.isBlank_of_isWordCharacter (Text.isWordCharacter_of_isDigit digit)
    have run := Piece.takeWhile_run each behind
    rw [List.cons_append] at run ⊢
    rw [Piece.first?, solid, if_neg Bool.false_ne_true, if_pos digit, run]
  | @word letters kind rest pieces first each behind atWord scans =>
    refine Or.inr ⟨_, rest, pieces, ?_, rfl, ?_, scans⟩
    · rw [Piece.chars, String.toList_ofList]
    have run := Piece.takeWhile_run each behind
    cases letters with
    | nil => cases first
    | cons c letters =>
      have letter : Text.isLetter c = true := first
      have solid := Text.isBlank_of_isWordCharacter (each c List.mem_cons_self)
      have digit : ¬c.isDigit = true := by
        intro digit
        rw [Text.isLetter_of_isDigit digit] at letter
        cases letter
      rw [List.cons_append] at run ⊢
      rw [Piece.first?, solid, if_neg Bool.false_ne_true, if_neg digit, if_pos letter, run, Piece.ofWord,
        atWord.wordKind_eq]
  | @pair c c' kind rest pieces symbol spelled scans =>
    refine Or.inr ⟨_, rest, pieces, ?_, rfl, ?_, scans⟩
    · rw [Piece.chars, String.toList_ofList]
      rfl
    · rw [Piece.first?_symbol symbol, List.head?_cons, Piece.ofSymbol, Option.bind_some,
        Piece.spelled?_of_spelling spelled]
      rfl
  | @single c kind rest pieces symbol noPair spelled scans =>
    refine Or.inr ⟨_, rest, pieces, ?_, rfl, ?_, scans⟩
    · rw [Piece.chars, String.toList_singleton]
      rfl
    · rw [Piece.first?_symbol symbol, Piece.ofSymbol_of_no_pair noPair, Piece.spelled?_of_spelling spelled]
      rfl
  | @unknown c rest pieces symbol noPair noSingle scans =>
    refine Or.inr ⟨_, rest, pieces, rfl, rfl, ?_, scans⟩
    rw [Piece.first?_symbol symbol, Piece.ofSymbol_of_no_pair noPair, Piece.spelled?_eq_none noSingle]
    rfl

/-- A text falls into pieces in one way only. -/
theorem unique {text : List Char} {one other : List Piece} (scans : Scans text one)
    (scans' : Scans text other) : one = other := by
  -- The first piece can be read off the text, and what is left of the text is what it leaves.
  induction one generalizing text other with
  | nil =>
    rcases scans.uncons with ⟨rfl, _⟩ | ⟨_, _, _, _, same, _⟩
    · rcases scans'.uncons with ⟨_, rfl⟩ | ⟨_, _, _, _, _, first, _⟩
      · rfl
      · cases first
    · cases same
  | cons piece one ih =>
    rcases scans.uncons with ⟨_, same⟩ | ⟨_, rest, _, whole, same, first, later⟩
    · cases same
    cases same
    rcases scans'.uncons with ⟨rfl, _⟩ | ⟨piece', rest', other, whole', rfl, first', later'⟩
    · cases first
    cases Option.some.inj (first.symm.trans first')
    cases List.append_cancel_left (whole.symm.trans whole')
    rw [ih later later']

theorem blanks {blanks rest : List Char} {pieces : List Piece}
    (each : ∀ c ∈ blanks, Text.isBlank c = true) (scans : Scans rest pieces) :
    Scans (blanks ++ rest) (blanks.map .blank ++ pieces) := by
  induction blanks with
  | nil => exact scans
  | cons c blanks ih =>
    obtain ⟨first, later⟩ := List.forall_mem_cons.mp each
    exact .blank first (ih later)

end Scans

/-- What can stand as a lexeme in a text of small letters: a spelling, a number or an identifier. -/
inductive IsLexeme : Lexeme → Prop
  | spelled {kind text} : kind.spelling? = some text → IsLexeme (kind, text)
  | number {digits : List Char} : digits ≠ [] → (∀ c ∈ digits, c.isDigit = true) →
      IsLexeme (.integer, String.ofList digits)
  | name {text} : IsIdentifier text → (∀ c ∈ text.toList, Text.lower c = c) → IsLexeme (.identifier, text)

instance (c : Char) : Decidable (IsSymbol c) :=
  inferInstanceAs (Decidable (_ ∧ _ ∧ _))

/-- A spelling is a word, or one or two characters of which the first is a symbol. -/
theorem Kind.spelling_forms (kind : Kind) : ∀ text ∈ kind.spelling?,
    (kind.isKeyword = true ∧ text.toList.head?.any Text.isLetter = true ∧
        ∀ c ∈ text.toList, isWordCharacter c = true) ∨
      ∃ c, IsSymbol c ∧ (text = String.singleton c ∨ ∃ next, text = String.ofList [c, next]) := by
  have each : ∀ text ∈ kind.spelling?,
      (kind.isKeyword = true ∧ text.toList.head?.any Text.isLetter = true ∧
          text.toList.all isWordCharacter = true) ∨
        text.toList.length ≤ 2 ∧ text.toList.head?.any (IsSymbol ·) = true := by
    cases kind <;> decide +kernel
  intro text spelled
  refine (each text spelled).imp (fun ⟨keyword, first, word⟩ => ?_) fun ⟨short, symbol⟩ => ?_
  · exact ⟨keyword, first, List.all_eq_true.mp word⟩
  · match chars : text.toList with
    | [] =>
      rw [chars] at symbol
      cases symbol
    | [c] =>
      rw [chars] at symbol
      refine ⟨c, of_decide_eq_true symbol, Or.inl ?_⟩
      rw [← String.toList_inj, chars, String.toList_singleton]
    | [c, next] =>
      rw [chars] at symbol
      refine ⟨c, of_decide_eq_true symbol, Or.inr ⟨next, ?_⟩⟩
      rw [← String.toList_inj, chars, String.toList_ofList]
    | _ :: _ :: _ :: _ =>
      rw [chars] at short
      exact absurd short (by simp)

theorem Kind.lower_spelling (kind : Kind) :
    ∀ text ∈ kind.spelling?, text.toList ≠ [] ∧ ∀ c ∈ text.toList, Text.lower c = c := by
  have each : (kind.spelling?.all fun text =>
      !text.toList.isEmpty && text.toList.all fun c => Text.lower c == c) = true := by
    cases kind <;> rfl
  intro text spelled
  rw [Option.mem_def.mp spelled] at each
  obtain ⟨present, small⟩ := Bool.and_eq_true_iff.mp each
  refine ⟨List.isEmpty_eq_false_iff.mp ((Bool.not_eq_true' _).mp present), fun c member => ?_⟩
  exact eq_of_beq (List.all_eq_true.mp small c member)

namespace IsLexeme

variable {word : Lexeme}

theorem lower (isLexeme : IsLexeme word) : ∀ c ∈ word.2.toList, Text.lower c = c := by
  cases isLexeme with
  | @spelled kind text spelled => exact (kind.lower_spelling text spelled).2
  | number _ each =>
    rw [String.toList_ofList]
    intro c member
    have digit := each c member
    exact Text.forall_ascii (P := fun c => c.isDigit = true → Text.lower c = c) (by decide +kernel)
      (Text.small_of_isDigit digit) digit
  | name _ small => exact small

/-- A lexeme stands between blanks as a whole. -/
theorem solid (isLexeme : IsLexeme word) :
    word.2.toList ≠ [] ∧ ∀ c ∈ word.2.toList, Text.isBlank c = false := by
  cases isLexeme with
  | @spelled kind text spelled =>
    refine ⟨(kind.lower_spelling text spelled).1, fun c member => ?_⟩
    exact (Bool.not_eq_true' _).mp (kind.solid_spelling text spelled c member)
  | number present each =>
    rw [String.toList_ofList]
    exact ⟨present, fun c member =>
      Text.isBlank_of_isWordCharacter (Text.isWordCharacter_of_isDigit (each c member))⟩
  | @name text valid _ =>
    obtain ⟨first, each, _⟩ := valid
    refine ⟨?_, fun c member => Text.isBlank_of_isWordCharacter (each c member)⟩
    intro nothing
    rw [nothing] at first
    cases first

theorem endOfText_notMem (isLexeme : IsLexeme word) : endOfText ∉ word.2.toList := by
  cases isLexeme with
  | @spelled kind text spelled => exact kind.endOfText_notMem_spelling text spelled
  | number _ each =>
    rw [String.toList_ofList]
    exact fun member => absurd (each _ member) (by decide)
  | name valid _ => exact fun member => absurd (valid.2.1 _ member) (by decide +kernel)

/-- A lexeme in front of a blank is a piece of its own, whatever stands behind the blank. -/
theorem scans (isLexeme : IsLexeme word) {rest : List Char} {pieces : List Piece}
    (cut : ∀ c ∈ rest.head?, Text.isBlank c = true) (later : Scans rest pieces) :
    Scans (word.2.toList ++ rest) (.token word.1 word.2 :: pieces) := by
  have notWord : ∀ c ∈ rest.head?, isWordCharacter c = false := by
    refine fun c first => Bool.eq_false_iff.mpr fun inWord => ?_
    have blank := cut c first
    rw [Text.isBlank_of_isWordCharacter inWord] at blank
    cases blank
  have ofWord {text : String} {kind : Kind} (first : text.toList.head?.any Text.isLetter = true)
      (each : ∀ c ∈ text.toList, isWordCharacter c = true) (atWord : HasWordKind text kind) :
      Scans (text.toList ++ rest) (.token kind text :: pieces) := by
    rw [← String.ofList_toList (s := text)] at atWord
    have scans := Scans.word first each notWord atWord later
    rwa [String.ofList_toList] at scans
  cases isLexeme with
  | @spelled kind text spelled =>
    rcases kind.spelling_forms text spelled with ⟨keyword, first, each⟩ | ⟨c, symbol, rfl | ⟨next, rfl⟩⟩
    · exact ofWord first each (Or.inl ⟨keyword, spelled⟩)
    · rw [String.toList_singleton]
      refine .single symbol (fun next first pair same => ?_) spelled later
      have solid := pair.solid_spelling _ same next (by simp)
      rw [isSolid, cut next first] at solid
      cases solid
    · rw [String.toList_ofList]
      exact .pair symbol spelled later
  | number present each =>
    rw [String.toList_ofList]
    refine .number present each (fun c first => Bool.eq_false_iff.mpr fun digit => ?_) later
    have inWord := Text.isWordCharacter_of_isDigit digit
    rw [notWord c first] at inWord
    cases inWord
  | @name text valid _ =>
    obtain ⟨first, each, isIdentifier⟩ := valid
    refine ofWord first each ?_
    rw [← isIdentifier]
    exact hasWordKind_wordKind text

end IsLexeme

/-- The tokens of a text of small letters can stand in a text of small letters again. -/
theorem Scans.isLexeme {text : List Char} {pieces : List Piece} (scans : Scans text pieces)
    (small : ∀ c ∈ text, Text.lower c = c) : ∀ word ∈ pieces.filterMap Piece.token?, IsLexeme word := by
  induction scans with
  | done => exact List.forall_mem_nil _
  | blank _ _ ih | unknown _ _ _ _ ih => exact ih (List.forall_mem_cons.mp small).2
  | number present each _ _ ih =>
    exact List.forall_mem_cons.mpr ⟨.number present each, ih (List.forall_mem_append.mp small).2⟩
  | @word letters kind _ _ first each _ atWord _ ih =>
    refine List.forall_mem_cons.mpr ⟨?_, ih (List.forall_mem_append.mp small).2⟩
    rcases atWord with ⟨keyword, spelled⟩ | ⟨rfl, none⟩
    · exact .spelled spelled
    · refine .name ⟨?_, ?_, HasWordKind.wordKind (Or.inr ⟨rfl, none⟩)⟩ ?_
      · rw [String.toList_ofList]
        exact first
      · rw [String.toList_ofList]
        exact each
      · rw [String.toList_ofList]
        exact (List.forall_mem_append.mp small).1
  | pair _ spelled _ ih =>
    have later := (List.forall_mem_cons.mp (List.forall_mem_cons.mp small).2).2
    exact List.forall_mem_cons.mpr ⟨.spelled spelled, ih later⟩
  | single _ _ spelled _ ih =>
    exact List.forall_mem_cons.mpr ⟨.spelled spelled, ih (List.forall_mem_cons.mp small).2⟩

theorem Piece.unknown?_blanks (blanks : List Char) : (blanks.map Piece.blank).filterMap Piece.unknown? = [] := by
  rw [List.filterMap_map]
  exact List.filterMap_eq_nil_iff.mpr fun _ _ => rfl

/-- A text whose parts between blanks are lexemes falls into these and blanks. -/
theorem exists_scans {words : List Lexeme} (valid : ∀ word ∈ words, IsLexeme word) {text : List Char}
    (solids : Text.solids text = words.map fun word => word.2.toList) :
    ∃ pieces, Scans text pieces ∧ pieces.filterMap Piece.token? = words ∧
      pieces.filterMap Piece.unknown? = [] := by
  induction words generalizing text with
  | nil =>
    have scans := Scans.blanks (Text.solids_eq_nil solids) .done
    rw [List.append_nil, List.append_nil] at scans
    exact ⟨text.map .blank, scans, Scanner.token?_blanks text, Piece.unknown?_blanks text⟩
  | cons word words ih =>
    obtain ⟨first, others⟩ := List.forall_mem_cons.mp valid
    obtain ⟨blanks, rest, rfl, blank, cut, same⟩ := Text.exists_of_solids_eq_cons solids
    obtain ⟨pieces, scans, tokens, unknowns⟩ := ih others same
    refine ⟨blanks.map .blank ++ .token word.1 word.2 :: pieces, .blanks blank (first.scans cut scans), ?_, ?_⟩
    · rw [List.filterMap_append, Scanner.token?_blanks, List.nil_append,
        List.filterMap_cons_some (f := Piece.token?) rfl, tokens]
    · rw [List.filterMap_append, Piece.unknown?_blanks, List.nil_append, List.filterMap_cons_none rfl, unknowns]

/-- A character that separates lexemes. -/
abbrev Blank := { c : Char // Text.isBlank c = true }

/-- The blanks around lexemes. Between two of them stands at least one. -/
structure Layout where
  before : List Blank
  between : Nat → { gap : List Blank // gap ≠ [] }
  behind : List Blank

namespace Layout

/-- The lexemes from one index on, with the blanks between them. -/
def joined (layout : Layout) (index : Nat) : List String → List Char
  | [] => []
  | [lexeme] => lexeme.toList
  | lexeme :: next :: rest =>
    lexeme.toList ++ ((layout.between index).1.unattach ++ layout.joined (index + 1) (next :: rest))

/-- The text of some lexemes. -/
def text (layout : Layout) (lexemes : List String) : String :=
  String.ofList (layout.before.unattach ++ (layout.joined 0 lexemes ++ layout.behind.unattach))

theorem blank_unattach (blanks : List Blank) : ∀ c ∈ blanks.unattach, Text.isBlank c = true := by
  intro c member
  obtain ⟨blank, _⟩ := List.mem_unattach.mp member
  exact blank

variable {lexemes : List String}

/-- The lexemes are what stands between the blanks. -/
theorem solids_joined (layout : Layout) (index : Nat)
    (solid : ∀ lexeme ∈ lexemes, lexeme.toList ≠ [] ∧ ∀ c ∈ lexeme.toList, Text.isBlank c = false) :
    Text.solids (layout.joined index lexemes) = lexemes.map String.toList := by
  induction lexemes generalizing index with
  | nil => rfl
  | cons lexeme lexemes ih =>
    obtain ⟨⟨present, first⟩, others⟩ := List.forall_mem_cons.mp solid
    cases lexemes with
    | nil => exact Text.solids_word present first
    | cons next rest =>
      have blank := blank_unattach (layout.between index).1
      have cut : ∀ c ∈ ((layout.between index).1.unattach ++
          layout.joined (index + 1) (next :: rest)).head?, Text.isBlank c = true := by
        obtain ⟨gap, wide⟩ := layout.between index
        cases gap with
        | nil => exact absurd rfl wide
        | cons c gap =>
          rintro _ ⟨⟩
          exact c.2
      rw [joined, Text.solids_append cut, Text.solids_word present first, Text.solids_blanks blank, ih _ others]
      rfl

theorem solids_text (layout : Layout)
    (solid : ∀ lexeme ∈ lexemes, lexeme.toList ≠ [] ∧ ∀ c ∈ lexeme.toList, Text.isBlank c = false) :
    Text.solids (layout.text lexemes).toList = lexemes.map String.toList := by
  have behind := Text.solids_blanks (blank_unattach layout.behind) []
  have cut : ∀ c ∈ layout.behind.unattach.head?, Text.isBlank c = true := fun c first =>
    blank_unattach layout.behind c (List.mem_of_mem_head? first)
  rw [List.append_nil] at behind
  rw [text, String.toList_ofList, Text.solids_blanks (blank_unattach layout.before), Text.solids_append cut,
    behind, Text.solids_nil, List.append_nil, layout.solids_joined 0 solid]

end Layout

namespace Scanner

/-- What a scanner finds is told by the pieces of its text. -/
theorem tokens_of_scans {scanner : Scanner} {pieces : List Piece} (scans : Scans scanner.text pieces) :
    scanner.tokens.1.map Token.word = pieces.filterMap Piece.token? ∧
      scanner.tokens.2.diagnostics =
        scanner.diagnostics ++ (pieces.filterMap Piece.unknown?).map .unknownSymbol := by
  obtain ⟨pieces', whole, same, diagnostics⟩ := scanner.tokens_scans
  cases scans.unique whole
  exact ⟨same.symm, diagnostics⟩

/-- A source whose parts between blanks are lexemes has these as its tokens, and no errors. -/
theorem tokens_of_solids {words : List Lexeme} (valid : ∀ word ∈ words, IsLexeme word) {source : String}
    (solids : Text.solids source.toList = words.map fun word => word.2.toList) :
    (ofReader (.ofSource source)).tokens.1.map Token.word = words ∧
      (ofReader (.ofSource source)).tokens.2.reader.journal.errors = 0 := by
  let reader := Reader.ofSource source
  have small : Text.solids reader.text = words.map fun word => word.2.toList := by
    have fixed : (words.map fun word => word.2.toList).map (List.map Text.lower) =
        words.map fun word => word.2.toList := by
      rw [List.map_map]
      refine List.map_congr_left fun word member => ?_
      exact (List.map_congr_left (valid word member).lower).trans (List.map_id _)
    have text : reader.text = ((Text.lines source).flatMap fun line => line.toList ++ ['\n']).map Text.lower := rfl
    rw [text, Text.solids_map_lower, Text.solids_lines, solids, fixed]
  have unmarked : endOfText ∉ reader.text := by
    intro member
    have inside : endOfText ∈ (Text.solids reader.text).flatten := by
      rw [Text.flatten_solids]
      exact List.mem_filter.mpr ⟨member, isSolid_endOfText⟩
    rw [small] at inside
    obtain ⟨_, isPart, atPart⟩ := List.mem_flatten.mp inside
    obtain ⟨word, member, rfl⟩ := List.mem_map.mp isPart
    exact (valid word member).endOfText_notMem atPart
  have whole : (ofReader reader).text = reader.text := by
    rw [text_ofReader, List.takeWhile_eq_self_iff]
    refine fun c member => decide_eq_true ?_
    rintro rfl
    exact unmarked member
  obtain ⟨pieces, scans, tokens, unknowns⟩ := exists_scans valid small
  rw [← whole] at scans
  obtain ⟨found, reported⟩ := tokens_of_scans scans
  have begins : (ofReader reader).diagnostics = [] := reader.diagnostics_next
  rw [unknowns, begins] at reported
  refine ⟨found.trans tokens, ?_⟩
  rw [Journal.errors_eq_length]
  exact congrArg List.length reported

/-- The tokens of a source can stand in another one. -/
theorem isLexeme_tokens (source : String) :
    ∀ word ∈ (ofReader (.ofSource source)).tokens.1.map Token.word, IsLexeme word := by
  obtain ⟨pieces, scans, same, _⟩ := (ofReader (.ofSource source)).tokens_scans
  have small : ∀ c ∈ (ofReader (.ofSource source)).text, Text.lower c = c := by
    intro c member
    rw [text_ofReader] at member
    obtain ⟨capital, _, rfl⟩ := List.mem_map.mp ((List.takeWhile_sublist _).mem member)
    exact Text.lower_lower capital
  have words : (ofReader (.ofSource source)).tokens.1.map Token.word = pieces.filterMap Piece.token? := same.symm
  rw [words]
  exact scans.isLexeme small

end Scanner

/-- Lexemes with blanks between them are scanned as they are, whatever the blanks: those of a text however it
is laid out anew, and all others that there can be. -/
theorem scan_layout (layout : Layout) :
    (∀ source : String,
      let tokens := (Scanner.ofReader (.ofSource source)).tokens.1
      let again := (Scanner.ofReader (.ofSource (layout.text (tokens.map Token.lexeme)))).tokens
      again.1.map Token.word = tokens.map Token.word ∧ again.2.reader.journal.errors = 0) ∧
    ∀ words : List { word : Lexeme // IsLexeme word },
      let scanned := (Scanner.ofReader (.ofSource (layout.text (words.map (·.1.2))))).tokens
      scanned.1.map Token.word = words.map (·.1) ∧ scanned.2.reader.journal.errors = 0 := by
  have scanned {words : List Lexeme} (valid : ∀ word ∈ words, IsLexeme word) :
      (Scanner.ofReader (.ofSource (layout.text (words.map Prod.snd)))).tokens.1.map Token.word = words ∧
        (Scanner.ofReader (.ofSource (layout.text (words.map Prod.snd)))).tokens.2.reader.journal.errors = 0 := by
    refine Scanner.tokens_of_solids valid ?_
    rw [layout.solids_text, List.map_map]
    · rfl
    · intro lexeme member
      obtain ⟨word, isWord, rfl⟩ := List.mem_map.mp member
      exact (valid word isWord).solid
  constructor
  · intro source
    have again := scanned (Scanner.isLexeme_tokens source)
    rwa [List.map_map] at again
  · intro words
    have valid : ∀ word ∈ words.map Subtype.val, IsLexeme word := by
      intro word member
      obtain ⟨⟨_, isLexeme⟩, _, rfl⟩ := List.mem_map.mp member
      exact isLexeme
    have result := scanned valid
    rwa [List.map_map] at result

end AdaFront
