import AdaFront.Proofs.Tokens

namespace AdaFront

/-- The diagnostics among the events, the earliest first. -/
def Event.diagnostic? : Event → Option Diagnostic
  | .reported _ diagnostic => some diagnostic
  | _ => none

def Journal.diagnostics (journal : Journal) : List Diagnostic :=
  journal.reverse.filterMap Event.diagnostic?

@[simp] theorem Journal.diagnostics_cons (event : Event) (journal : Journal) :
    diagnostics (event :: journal) = diagnostics journal ++ event.diagnostic?.toList := by
  rw [diagnostics, diagnostics, List.reverse_cons, List.filterMap_append]
  cases event <;> rfl

theorem Journal.errors_eq_length (journal : Journal) :
    journal.errors = journal.diagnostics.length := by
  induction journal with
  | nil => rfl
  | cons event journal ih =>
    rw [errors] at ih ⊢
    rw [List.countP_cons, ih, diagnostics_cons, List.length_append]
    cases event <;> rfl

/-- A piece of a text: a blank, a token or a character that no token can begin with. -/
inductive Piece where
  | blank (c : Char)
  | token (kind : Kind) (lexeme : String)
  | unknown (c : Char)
deriving DecidableEq, Repr, Inhabited

namespace Piece

def chars : Piece → List Char
  | .blank c | .unknown c => [c]
  | .token _ lexeme => lexeme.toList

def token? : Piece → Option (Kind × String)
  | .token kind lexeme => some (kind, lexeme)
  | _ => none

def unknown? : Piece → Option Char
  | .unknown c => some c
  | _ => none

end Piece

/-- A word has the kind of the keyword that it spells, if there is one. -/
def HasWordKind (word : String) (kind : Kind) : Prop :=
  (kind.isKeyword = true ∧ kind.spelling? = some word) ∨
    (kind = .identifier ∧ ∀ keyword : Kind, keyword.isKeyword = true → keyword.spelling? ≠ some word)

/-- Characters that begin neither a number nor a word and separate nothing. -/
def IsSymbol (c : Char) : Prop :=
  Text.isBlank c = false ∧ c.isDigit = false ∧ Text.isLetter c = false

/-- The way a text falls into pieces. Numbers and words go on as long as they can, and two characters
go together whenever they spell an operator. -/
inductive Scans : List Char → List Piece → Prop
  | done : Scans [] []
  | blank {c rest pieces} : Text.isBlank c = true → Scans rest pieces →
      Scans (c :: rest) (.blank c :: pieces)
  | number {digits rest pieces} : digits ≠ [] → (∀ c ∈ digits, c.isDigit = true) →
      (∀ c ∈ rest.head?, c.isDigit = false) → Scans rest pieces →
      Scans (digits ++ rest) (.token .integer (String.ofList digits) :: pieces)
  | word {letters kind rest pieces} : letters.head?.any Text.isLetter = true →
      (∀ c ∈ letters, isWordCharacter c = true) → (∀ c ∈ rest.head?, isWordCharacter c = false) →
      HasWordKind (String.ofList letters) kind → Scans rest pieces →
      Scans (letters ++ rest) (.token kind (String.ofList letters) :: pieces)
  | pair {first second kind rest pieces} : IsSymbol first →
      kind.spelling? = some (String.ofList [first, second]) → Scans rest pieces →
      Scans (first :: second :: rest) (.token kind (String.ofList [first, second]) :: pieces)
  | single {c kind rest pieces} : IsSymbol c →
      (∀ next ∈ rest.head?, ∀ pair : Kind, pair.spelling? ≠ some (String.ofList [c, next])) →
      kind.spelling? = some (String.singleton c) → Scans rest pieces →
      Scans (c :: rest) (.token kind (String.singleton c) :: pieces)
  | unknown {c rest pieces} : IsSymbol c →
      (∀ next ∈ rest.head?, ∀ pair : Kind, pair.spelling? ≠ some (String.ofList [c, next])) →
      (∀ single : Kind, single.spelling? ≠ some (String.singleton c)) → Scans rest pieces →
      Scans (c :: rest) (.unknown c :: pieces)

/-- The pieces are the whole text. -/
theorem Scans.chars {text : List Char} {pieces : List Piece} (scans : Scans text pieces) :
    pieces.flatMap Piece.chars = text := by
  induction scans with
  | done => rfl
  | blank _ _ ih | number _ _ _ _ ih | word _ _ _ _ _ ih | pair _ _ _ ih | single _ _ _ _ ih
  | unknown _ _ _ _ ih =>
    rw [List.flatMap_cons, ih]
    simp [Piece.chars]

namespace Kind

theorem ofSpelling?_of_spelling (kind : Kind) :
    ∀ text ∈ kind.spelling?, ofSpelling? text = some kind := by
  cases kind <;> decide

theorem ofSpelling?_eq_some {text : String} {kind : Kind} :
    ofSpelling? text = some kind ↔ kind.spelling? = some text := by
  constructor
  · intro found
    have same := List.find?_some found
    exact eq_of_beq same
  · exact fun same => ofSpelling?_of_spelling kind text same

theorem ofSpelling?_eq_none {text : String} :
    ofSpelling? text = none ↔ ∀ kind : Kind, kind.spelling? ≠ some text := by
  rw [Option.eq_none_iff_forall_ne_some]
  exact forall_congr' fun kind => not_congr ofSpelling?_eq_some

/-- The mark of the end is no part of a spelling. -/
theorem endOfText_notMem_spelling (kind : Kind) :
    ∀ text ∈ kind.spelling?, endOfText ∉ text.toList := by
  cases kind <;> decide

end Kind

theorem hasWordKind_wordKind (word : String) : HasWordKind word (wordKind word) := by
  unfold wordKind
  split
  next kind found =>
    rw [Kind.ofSpelling?_eq_some] at found
    split
    next keyword => exact Or.inl ⟨keyword, found⟩
    next other =>
      refine Or.inr ⟨rfl, fun kind' keyword same => other ?_⟩
      have spelled := Kind.ofSpelling?_of_spelling kind' word same
      rw [Kind.ofSpelling?_of_spelling kind word found] at spelled
      cases spelled
      exact keyword
  next nothing =>
    exact Or.inr ⟨rfl, fun kind _ => Kind.ofSpelling?_eq_none.mp nothing kind⟩

theorem HasWordKind.ne_endOfInput {word : String} {kind : Kind} (atWord : HasWordKind word kind) :
    kind ≠ .endOfInput := by
  rintro rfl
  rcases atWord with ⟨keyword, _⟩ | ⟨same, _⟩
  · cases keyword
  · cases same

/-- The characters that are still to be read, in lower case. -/
def Reader.text (reader : Reader) : List Char :=
  (reader.ahead ++ reader.below.flatMap fun line => line.toList ++ ['\n']).map Text.lower

theorem Reader.diagnostics_next (reader : Reader) :
    reader.next.2.journal.diagnostics = reader.journal.diagnostics := by
  obtain ⟨ahead, below, spot, journal⟩ := reader
  cases ahead with
  | cons c rest => rfl
  | nil =>
    cases below with
    | nil => rfl
    | cons line below =>
      have started : Journal.diagnostics (.lineRead (spot.number + 1) line :: journal) =
          journal.diagnostics := by simp [Event.diagnostic?]
      cases chars : line.toList with
      | nil => simpa [next, startLine, take, chars] using started
      | cons c rest => simpa [next, startLine, take, chars] using started

theorem Reader.text_next (reader : Reader) :
    (reader.text = [] ∧ reader.next.1 = endOfText) ∨
      reader.text = reader.next.1 :: reader.next.2.text := by
  obtain ⟨ahead, below, spot, journal⟩ := reader
  cases ahead with
  | cons c rest => exact Or.inr rfl
  | nil =>
    cases below with
    | nil => exact Or.inl ⟨rfl, rfl⟩
    | cons line below =>
      refine Or.inr ?_
      cases chars : line.toList with
      | nil => simp [text, next, startLine, take, chars]
      | cons c rest => simp [text, next, startLine, take, chars]

namespace Scanner

/-- The characters from the current one up to the end of the text. -/
def text (scanner : Scanner) : List Char :=
  (scanner.current :: scanner.reader.text).takeWhile (· ≠ endOfText)

theorem text_ofReader (reader : Reader) :
    (ofReader reader).text = reader.text.takeWhile (· ≠ endOfText) := by
  rcases reader.text_next with ⟨nothing, mark⟩ | more
  · have atEnd : (ofReader reader).current = endOfText := mark
    simp [text, atEnd, nothing]
  · rw [more]
    rfl

theorem text_of_end {scanner : Scanner} (mark : scanner.current = endOfText) : scanner.text = [] := by
  simp [text, mark]

theorem text_advance {scanner : Scanner} (inside : scanner.current ≠ endOfText) :
    scanner.text = scanner.current :: scanner.advance.text := by
  rw [advance, text_ofReader, text, List.takeWhile_cons, if_pos (decide_eq_true inside)]

theorem mem_head?_text {scanner : Scanner} {c : Char} (member : c ∈ scanner.text.head?) :
    scanner.current = c ∧ scanner.current ≠ endOfText := by
  by_cases mark : scanner.current = endOfText
  · rw [text_of_end mark] at member
    cases member
  · rw [text_advance mark] at member
    exact ⟨Option.some.inj member, mark⟩

/-- The diagnostics so far. -/
def diagnostics (scanner : Scanner) : List Diagnostic :=
  scanner.reader.journal.diagnostics

@[simp] theorem diagnostics_advance (scanner : Scanner) :
    scanner.advance.diagnostics = scanner.diagnostics :=
  scanner.reader.diagnostics_next

@[simp] theorem diagnostics_emit (scanner : Scanner) (kind : Kind) (lexeme : String) :
    (scanner.emit kind lexeme).2.diagnostics = scanner.diagnostics := by
  simp [emit, log, Reader.log, diagnostics, Event.diagnostic?]

/-- A run holds the characters of its class, and the text behind it goes on with another one. -/
theorem takeRun_text (inClass : Char → Bool) (scanner : Scanner) :
    scanner.text = (scanner.takeRun inClass).1 ++ (scanner.takeRun inClass).2.text ∧
      (∀ c ∈ (scanner.takeRun inClass).1, inClass c = true) ∧
      (∀ c ∈ (scanner.takeRun inClass).2.text.head?, inClass c = false) ∧
      (scanner.takeRun inClass).2.diagnostics = scanner.diagnostics := by
  induction scanner using takeRun.induct inClass with
  | case1 scanner inside ih =>
    obtain ⟨text, members, behind, diagnostics⟩ := ih
    rw [takeRun.eq_def, if_pos inside]
    refine ⟨?_, ?_, behind, diagnostics.trans scanner.diagnostics_advance⟩
    · rw [text_advance inside.1, text, List.cons_append]
    · exact List.forall_mem_cons.mpr ⟨inside.2, members⟩
  | case2 scanner outside =>
    rw [takeRun.eq_def, if_neg outside]
    refine ⟨rfl, List.forall_mem_nil _, ?_, rfl⟩
    intro c member
    obtain ⟨rfl, inside⟩ := mem_head?_text member
    exact Bool.eq_false_iff.mpr fun same => outside ⟨inside, same⟩

/-- Between two places of a scanner stand pieces, whose unknown characters have been reported. -/
structure Passes (scanner after : Scanner) (pieces : List Piece) : Prop where
  scans : ∀ later, Scans after.text later → Scans scanner.text (pieces ++ later)
  diagnostics : after.diagnostics =
    scanner.diagnostics ++ (pieces.filterMap Piece.unknown?).map .unknownSymbol

namespace Passes

variable {scanner middle after : Scanner}

theorem refl (scanner : Scanner) : Passes scanner scanner [] :=
  ⟨fun _ scans => scans, (List.append_nil _).symm⟩

theorem trans {first second : List Piece} (left : Passes scanner middle first)
    (right : Passes middle after second) : Passes scanner after (first ++ second) := by
  constructor
  · intro later scans
    rw [List.append_assoc]
    exact left.scans _ (right.scans later scans)
  · rw [right.diagnostics, left.diagnostics, List.filterMap_append, List.map_append,
      List.append_assoc]

theorem single {piece : Piece} (known : piece.unknown? = none)
    (scans : ∀ later, Scans after.text later → Scans scanner.text (piece :: later))
    (same : after.diagnostics = scanner.diagnostics) : Passes scanner after [piece] := by
  refine ⟨scans, ?_⟩
  rw [List.filterMap_cons_none known, List.filterMap_nil, List.map_nil, List.append_nil]
  exact same

/-- Completing a token takes no further characters. -/
theorem emit {pieces : List Piece} (kind : Kind) (lexeme : String)
    (passes : Passes scanner after pieces) : Passes scanner (after.emit kind lexeme).2 pieces :=
  ⟨passes.scans, (diagnostics_emit after kind lexeme).trans passes.diagnostics⟩

theorem skipBlanks (scanner : Scanner) :
    ∃ blanks : List Char, Passes scanner scanner.skipBlanks (blanks.map .blank) ∧
      Text.isBlank scanner.skipBlanks.current = false := by
  induction scanner using Scanner.skipBlanks.induct with
  | case1 scanner blank ih =>
    obtain ⟨blanks, passes, solid⟩ := ih
    rw [Scanner.skipBlanks.eq_def, if_pos blank]
    have inside : scanner.current ≠ endOfText := by
      intro mark
      rw [mark, isBlank_endOfText] at blank
      cases blank
    have first : Passes scanner scanner.advance [.blank scanner.current] := by
      refine single rfl ?_ scanner.diagnostics_advance
      intro later scans
      rw [text_advance inside]
      exact .blank blank scans
    exact ⟨scanner.current :: blanks, first.trans passes, solid⟩
  | case2 scanner solid =>
    rw [Scanner.skipBlanks.eq_def, if_neg solid]
    exact ⟨[], refl scanner, Bool.eq_false_iff.mpr solid⟩

theorem number {scanner : Scanner} (inside : scanner.current ≠ endOfText)
    (digit : scanner.current.isDigit = true) :
    Passes scanner (scanner.takeRun Char.isDigit).2
      [.token .integer (String.ofList (scanner.takeRun Char.isDigit).1)] := by
  obtain ⟨text, members, behind, same⟩ := scanner.takeRun_text Char.isDigit
  refine single rfl ?_ same
  intro later scans
  have present : (scanner.takeRun Char.isDigit).1 ≠ [] := by
    rw [takeRun.eq_def, if_pos ⟨inside, digit⟩]
    exact List.cons_ne_nil _ _
  rw [text]
  exact .number present members behind scans

theorem word {scanner : Scanner} (inside : scanner.current ≠ endOfText)
    (letter : Text.isLetter scanner.current = true) :
    Passes scanner (scanner.takeRun isWordCharacter).2
      [.token (wordKind (String.ofList (scanner.takeRun isWordCharacter).1))
        (String.ofList (scanner.takeRun isWordCharacter).1)] := by
  obtain ⟨text, members, behind, same⟩ := scanner.takeRun_text isWordCharacter
  refine single rfl ?_ same
  intro later scans
  have first : isWordCharacter scanner.current = true := by simp [isWordCharacter, letter]
  have begins : (scanner.takeRun isWordCharacter).1.head?.any Text.isLetter = true := by
    rw [takeRun.eq_def, if_pos ⟨inside, first⟩]
    exact letter
  rw [text]
  exact .word begins members behind (hasWordKind_wordKind _) scans

/-- What stands behind a character decides whether the two spell an operator. At the end of the text
they never do. -/
theorem spells_next {scanner : Scanner} {c : Char} {kind : Kind}
    (same : kind.spelling? = some (String.ofList [c, scanner.current])) :
    scanner.current ≠ endOfText := by
  intro mark
  have apart := kind.endOfText_notMem_spelling _ same
  rw [mark, String.toList_ofList] at apart
  exact apart (List.mem_cons_of_mem _ List.mem_cons_self)

theorem operator {scanner : Scanner} {found : Token × Scanner}
    (inside : scanner.current ≠ endOfText) (symbol : IsSymbol scanner.current)
    (run : scanner.operator? = some found) :
    found.1.kind ≠ .endOfInput ∧
      Passes scanner found.2 [.token found.1.kind found.1.lexeme] := by
  rcases operator?_cases run with ⟨kind, pair, rfl⟩ | ⟨noPair, kind, spelled, rfl⟩
  · rw [Kind.ofSpelling?_eq_some] at pair
    have insideAgain := spells_next pair
    refine ⟨?_, emit _ _ (single rfl (fun later scans => ?_) ?_)⟩
    · rintro rfl
      cases pair
    · rw [text_advance inside, text_advance insideAgain]
      exact .pair symbol pair scans
    · rw [diagnostics_advance, diagnostics_advance]
  · rw [Kind.ofSpelling?_eq_none] at noPair
    rw [Kind.ofSpelling?_eq_some] at spelled
    refine ⟨?_, emit _ _ (single rfl (fun later scans => ?_) (diagnostics_advance _))⟩
    · rintro rfl
      cases spelled
    · rw [text_advance inside]
      refine .single symbol ?_ spelled scans
      intro next member
      obtain ⟨rfl, _⟩ := mem_head?_text member
      exact noPair

theorem unknown {scanner : Scanner} (inside : scanner.current ≠ endOfText)
    (symbol : IsSymbol scanner.current) (run : scanner.operator? = none) :
    Passes scanner scanner.skipUnknown [.unknown scanner.current] := by
  unfold operator? at run
  dsimp only at run
  split at run
  next => cases run
  next noPair =>
    rw [Option.map_eq_none_iff, Kind.ofSpelling?_eq_none] at run
    rw [Kind.ofSpelling?_eq_none] at noPair
    refine ⟨fun later scans => ?_, ?_⟩
    · rw [text_advance inside]
      refine .unknown symbol ?_ run scans
      intro next member
      obtain ⟨rfl, _⟩ := mem_head?_text member
      exact noPair
    · have reported : scanner.skipUnknown.diagnostics =
          scanner.advance.diagnostics ++ [.unknownSymbol scanner.current] :=
        Journal.diagnostics_cons _ _
      rw [reported, diagnostics_advance]
      rfl

end Passes

theorem token?_blanks (blanks : List Char) :
    (blanks.map Piece.blank).filterMap Piece.token? = [] := by
  induction blanks with
  | nil => rfl
  | cons c blanks ih => exact ih

/-- The next token stands behind blanks and unknown characters; the end of the input stands at the end
of the text. -/
theorem next_passes (scanner : Scanner) :
    ∃ gap, gap.filterMap Piece.token? = [] ∧
      ((scanner.next.1 = Feed.endToken scanner.next.2.reader.spot ∧
          scanner.next.2.current = endOfText ∧ Passes scanner scanner.next.2 gap) ∨
        (scanner.next.1.kind ≠ .endOfInput ∧ Passes scanner scanner.next.2
          (gap ++ [.token scanner.next.1.kind scanner.next.1.lexeme]))) := by
  induction scanner using next_induction with
  | ended scanner mark =>
    obtain ⟨blanks, passes, solid⟩ := Passes.skipBlanks scanner
    rw [next_of_end mark]
    exact ⟨blanks.map .blank, token?_blanks blanks, Or.inl ⟨rfl, mark, passes.emit _ _⟩⟩
  | number scanner inside digit =>
    obtain ⟨blanks, passes, solid⟩ := Passes.skipBlanks scanner
    rw [next_of_digit inside digit]
    refine ⟨blanks.map .blank, token?_blanks blanks, Or.inr ⟨nofun, ?_⟩⟩
    exact (passes.trans (Passes.number inside digit)).emit _ _
  | word scanner inside digit letter =>
    obtain ⟨blanks, passes, solid⟩ := Passes.skipBlanks scanner
    rw [next_of_letter inside digit letter]
    refine ⟨blanks.map .blank, token?_blanks blanks, Or.inr ⟨?_, ?_⟩⟩
    · exact (hasWordKind_wordKind _).ne_endOfInput
    · exact (passes.trans (Passes.word inside letter)).emit _ _
  | operator scanner found inside digit letter run =>
    obtain ⟨blanks, passes, solid⟩ := Passes.skipBlanks scanner
    have symbol : IsSymbol scanner.skipBlanks.current :=
      ⟨solid, Bool.eq_false_iff.mpr digit, Bool.eq_false_iff.mpr letter⟩
    obtain ⟨token, last⟩ := Passes.operator inside symbol run
    rw [next_of_operator inside digit letter run]
    exact ⟨blanks.map .blank, token?_blanks blanks, Or.inr ⟨token, passes.trans last⟩⟩
  | unknown scanner inside digit letter run ih =>
    obtain ⟨blanks, passes, solid⟩ := Passes.skipBlanks scanner
    have symbol : IsSymbol scanner.skipBlanks.current :=
      ⟨solid, Bool.eq_false_iff.mpr digit, Bool.eq_false_iff.mpr letter⟩
    have before := passes.trans (Passes.unknown inside symbol run)
    obtain ⟨gap, quiet, found⟩ := ih
    rw [next_of_unknown inside digit letter run]
    refine ⟨blanks.map .blank ++ [.unknown scanner.skipBlanks.current] ++ gap, ?_, ?_⟩
    · rw [List.filterMap_append, List.filterMap_append, token?_blanks, quiet]
      rfl
    · refine found.imp (fun ⟨last, mark, rest⟩ => ⟨last, mark, before.trans rest⟩) fun ⟨token, rest⟩ => ?_
      rw [List.append_assoc]
      exact ⟨token, before.trans rest⟩

/-- The tokens up to the end of the input and all that stands between them are the whole text. -/
theorem tokens_passes (scanner : Scanner) :
    ∃ pieces, Passes scanner scanner.tokens.2 pieces ∧ scanner.tokens.2.current = endOfText ∧
      pieces.filterMap Piece.token? =
        scanner.tokens.1.map fun token => (token.kind, token.lexeme) := by
  induction scanner using tokens_induction with
  | ended scanner last =>
    obtain ⟨gap, quiet, ⟨_, mark, passes⟩ | ⟨other, _⟩⟩ := scanner.next_passes
    · rw [tokens_of_end last]
      exact ⟨gap, passes, mark, quiet⟩
    · exact absurd last other
  | more scanner more ih =>
    obtain ⟨gap, quiet, ⟨last, _⟩ | ⟨_, passes⟩⟩ := scanner.next_passes
    · exact absurd (congrArg Token.kind last) more
    · obtain ⟨pieces, later, mark, same⟩ := ih
      rw [tokens_of_more more]
      refine ⟨_, passes.trans later, mark, ?_⟩
      rw [List.filterMap_append, List.filterMap_append, quiet, same]
      rfl

/-- The pieces of the text tell the tokens, and what is reported until these are found. -/
theorem tokens_scans (scanner : Scanner) :
    ∃ pieces, Scans scanner.text pieces ∧
      pieces.filterMap Piece.token? = scanner.tokens.1.map (fun token => (token.kind, token.lexeme)) ∧
      scanner.tokens.2.diagnostics =
        scanner.diagnostics ++ (pieces.filterMap Piece.unknown?).map .unknownSymbol := by
  obtain ⟨pieces, passes, mark, same⟩ := scanner.tokens_passes
  have scans := passes.scans [] (by rw [text_of_end mark]; exact .done)
  rw [List.append_nil] at scans
  exact ⟨pieces, scans, same, passes.diagnostics⟩

theorem skipBlanks_of_end {scanner : Scanner} (mark : scanner.current = endOfText) :
    scanner.skipBlanks = scanner := by
  rw [skipBlanks.eq_def, if_neg (by rw [mark, isBlank_endOfText]; nofun)]

/-- At the end of the text the scanner stays where it is. -/
theorem nextMany_of_end (count : Nat) {scanner : Scanner} (mark : scanner.current = endOfText) :
    (scanner.nextMany count).next.1 = Feed.endToken scanner.reader.spot ∧
      (scanner.nextMany count).diagnostics = scanner.diagnostics := by
  have same := skipBlanks_of_end mark
  have step : scanner.next = scanner.emit .endOfInput "" := by
    rw [next_of_end (by rw [same]; exact mark), same]
  induction count generalizing scanner with
  | zero => exact ⟨congrArg Prod.fst step, rfl⟩
  | succ count ih =>
    have markAgain : scanner.next.2.current = endOfText := by rw [step]; exact mark
    have sameAgain := skipBlanks_of_end markAgain
    obtain ⟨token, diagnostics⟩ := ih markAgain sameAgain
      (by rw [next_of_end (by rw [sameAgain]; exact markAgain), sameAgain])
    rw [nextMany]
    refine ⟨token.trans ?_, diagnostics.trans ?_⟩
    · rw [step]
      rfl
    · rw [step, diagnostics_emit]

/-- Asking for one token after another gives the tokens and then the end of the input, again and again
and with nothing further to report. -/
theorem nextMany_next (scanner : Scanner) (count : Nat) :
    (scanner.nextMany count).next.1 =
        scanner.tokens.1.getD count (Feed.endToken scanner.tokens.2.reader.spot) ∧
      (scanner.tokens.1.length < count →
        (scanner.nextMany count).diagnostics = scanner.tokens.2.diagnostics) := by
  induction scanner using tokens_induction generalizing count with
  | ended scanner last =>
    obtain ⟨gap, quiet, ⟨token, mark, _⟩ | ⟨other, _⟩⟩ := scanner.next_passes
    · rw [tokens_of_end last]
      cases count with
      | zero => exact ⟨token, nofun⟩
      | succ count =>
        obtain ⟨again, diagnostics⟩ := nextMany_of_end count mark
        exact ⟨again, fun _ => diagnostics⟩
    · exact absurd last other
  | more scanner more ih =>
    rw [tokens_of_more more]
    cases count with
    | zero => exact ⟨rfl, nofun⟩
    | succ count =>
      obtain ⟨token, diagnostics⟩ := ih count
      exact ⟨token, fun less => diagnostics (Nat.lt_of_succ_lt_succ less)⟩

end Scanner

theorem Reader.text_ofLines (lines : List String) :
    (Reader.ofLines lines).text = lines.flatMap fun line => line.toList.map Text.lower ++ ['\n'] := by
  have feed : Text.lower '\n' = '\n' := by decide
  simp [Reader.text, Reader.ofLines, List.map_flatMap, feed]

/-- A source falls into blanks, tokens and unknown characters, each token as long as it can be.
Nothing is lost, and each unknown character is reported once. Behind the last token stands the end of
the input for ever. -/
theorem scan_lossless (lines : List String) :
    let scanner := Scanner.ofReader (.ofLines lines)
    let text := (lines.flatMap fun line => line.toList.map Text.lower ++ ['\n']).takeWhile
      (· ≠ endOfText)
    let last := scanner.tokens.2
    ∃ pieces, Scans text pieces ∧ pieces.flatMap Piece.chars = text ∧
      (scanner.tokens.1.map fun token => (token.kind, token.lexeme)) =
        pieces.filterMap Piece.token? ∧
      last.diagnostics = (pieces.filterMap Piece.unknown?).map .unknownSymbol ∧
      last.reader.journal.errors = (pieces.filterMap Piece.unknown?).length ∧
      (∀ count, (scanner.nextMany count).next.1 =
        scanner.tokens.1.getD count (Feed.endToken last.reader.spot)) ∧
      ∀ count, scanner.tokens.1.length < count →
        (scanner.nextMany count).diagnostics = last.diagnostics := by
  intro scanner text last
  obtain ⟨pieces, passes, mark, same⟩ := scanner.tokens_passes
  have whole : scanner.text = text := by
    rw [Scanner.text_ofReader, Reader.text_ofLines]
  have scans := passes.scans [] (by rw [Scanner.text_of_end mark]; exact .done)
  rw [List.append_nil, whole] at scans
  have begins : scanner.diagnostics = [] := (Reader.ofLines lines).diagnostics_next
  have reported := passes.diagnostics
  rw [begins, List.nil_append] at reported
  have counted := congrArg List.length reported
  rw [List.length_map] at counted
  exact ⟨pieces, scans, scans.chars, same.symm, reported,
    (Journal.errors_eq_length last.reader.journal).trans counted,
    fun count => (scanner.nextMany_next count).1, fun count => (scanner.nextMany_next count).2⟩

end AdaFront
