import AdaFront.Proofs.TokenDependence
import AdaFront.Proofs.Wording

namespace AdaFront

/-- The scanner stands in a line of the text, behind the characters of the line that it has passed. -/
structure Scanner.OnLine (lines : List String) (index : Nat) (line : String) (passed : List Char)
    (scanner : Scanner) : Prop where
  found : lines[index]? = some line
  spot : scanner.reader.spot = ⟨some line, index + 1, passed.length + 1⟩
  text : (line.toList ++ ['\n']).map Text.lower =
    passed ++ scanner.current :: scanner.reader.ahead.map Text.lower
  below : scanner.reader.below = lines.drop (index + 1)

/-- The scanner stands behind the last line of the text. -/
structure Scanner.Behind (lines : List String) (scanner : Scanner) : Prop where
  spot : scanner.reader.spot = ⟨none, lines.length, 0⟩
  current : scanner.current = endOfText
  ahead : scanner.reader.ahead = []
  below : scanner.reader.below = []

def Scanner.Placed (lines : List String) (scanner : Scanner) : Prop :=
  (∃ index line passed, scanner.OnLine lines index line passed) ∨ scanner.Behind lines

/-- The token stands in a line of the text, and reading one character behind it. -/
structure Token.InLine (lines : List String) (line : String) (before behind : List Char) (token : Token)
    (spot : Spot) : Prop where
  found : lines[token.line - 1]? = some line
  positive : 1 ≤ token.line
  text : (line.toList ++ ['\n']).map Text.lower = before ++ token.lexeme.toList ++ behind
  column : token.column = before.length + token.lexeme.length + 1
  behind : behind ≠ []
  spot : spot = ⟨some line, token.line, token.column⟩

/-- A token has its place in a line, or it is the end of the input behind the last line. -/
def Token.Placed (lines : List String) (token : Token) (spot : Spot) : Prop :=
  (∃ line before behind, token.InLine lines line before behind spot) ∨
    token = ⟨.endOfInput, "", lines.length, 0⟩ ∧ spot = ⟨none, lines.length, 0⟩

namespace Scanner

variable {lines : List String} {index : Nat} {line : String} {passed : List Char} {scanner : Scanner}

/-- A reader that has come to the end of a line goes on in the next one, if there is one. -/
theorem placed_ofReader {reader : Reader} (ahead : reader.ahead = [])
    (below : reader.below = lines.drop reader.spot.number) (bound : reader.spot.number ≤ lines.length) :
    (ofReader reader).Placed lines := by
  obtain ⟨_, rest, spot, journal⟩ := reader
  dsimp only at ahead below bound
  subst ahead
  cases rest with
  | nil =>
    have last : spot.number = lines.length :=
      Nat.le_antisymm bound (List.drop_eq_nil_iff.mp below.symm)
    refine Or.inr ⟨?_, rfl, rfl, rfl⟩
    rw [← last]
    rfl
  | cons line rest =>
    obtain ⟨found, behind⟩ := next_of_drop below
    refine Or.inl ⟨spot.number, line, [], found, ?_, ?_, ?_⟩
    all_goals cases chars : line.toList <;>
      simp [ofReader, Reader.next, Reader.startLine, Reader.take, chars, behind]

namespace OnLine

theorem log {event : Event} (onLine : scanner.OnLine lines index line passed) :
    (scanner.log event).OnLine lines index line passed :=
  ⟨onLine.found, onLine.spot, onLine.text, onLine.below⟩

theorem bound (onLine : scanner.OnLine lines index line passed) : index + 1 ≤ lines.length :=
  (List.getElem?_eq_some_iff.mp onLine.found).1

/-- Only a line feed ends a line. -/
theorem ahead_ne_nil (onLine : scanner.OnLine lines index line passed) (inner : scanner.current ≠ '\n') :
    scanner.reader.ahead ≠ [] := by
  intro nothing
  have text := onLine.text
  have feed : Text.lower '\n' = '\n' := by decide
  rw [nothing, List.map_append, List.map_nil, List.map_singleton, feed] at text
  have last := congrArg List.getLast? text
  rw [List.getLast?_concat, List.getLast?_concat] at last
  exact inner (Option.some.inj last).symm

theorem advance_of_ahead {c : Char} {rest : List Char} (onLine : scanner.OnLine lines index line passed)
    (ahead : scanner.reader.ahead = c :: rest) :
    scanner.advance.OnLine lines index line (passed ++ [scanner.current]) := by
  have next : scanner.reader.next = (Text.lower c, { scanner.reader with
      ahead := rest, spot := { scanner.reader.spot with column := scanner.reader.spot.column + 1 } }) := by
    rw [Reader.next, Reader.take, ahead]
  have moved : scanner.advance = ⟨scanner.reader.next.1, scanner.reader.next.2⟩ := rfl
  rw [moved, next]
  refine ⟨onLine.found, ?_, ?_, onLine.below⟩
  · rw [onLine.spot, List.length_append]
    rfl
  · have text := onLine.text
    rw [ahead, List.map_cons] at text
    rw [text, List.append_assoc]
    rfl

theorem advance (onLine : scanner.OnLine lines index line passed) (inner : scanner.current ≠ '\n') :
    scanner.advance.OnLine lines index line (passed ++ [scanner.current]) := by
  obtain ⟨c, rest, ahead⟩ := List.exists_cons_of_ne_nil (onLine.ahead_ne_nil inner)
  exact onLine.advance_of_ahead ahead

/-- Within a line nothing happens. -/
theorem journal_advance (onLine : scanner.OnLine lines index line passed) (inner : scanner.current ≠ '\n') :
    scanner.advance.reader.journal = scanner.reader.journal := by
  obtain ⟨c, rest, ahead⟩ := List.exists_cons_of_ne_nil (onLine.ahead_ne_nil inner)
  have moved : scanner.advance.reader = scanner.reader.next.2 := rfl
  rw [moved, Reader.next, Reader.take, ahead]

theorem ne_of_inClass {inClass : Char → Bool} {c other : Char} (apart : inClass other = false)
    (member : inClass c = true) : c ≠ other := by
  rintro rfl
  rw [apart] at member
  cases member

/-- A run without line feeds stays in its line. -/
theorem takeRun {inClass : Char → Bool} (apart : inClass '\n' = false)
    (onLine : scanner.OnLine lines index line passed) :
    (scanner.takeRun inClass).2.OnLine lines index line (passed ++ (scanner.takeRun inClass).1) := by
  induction scanner using Scanner.takeRun.induct inClass generalizing passed with
  | case1 scanner inside ih =>
    have inner := ne_of_inClass apart inside.2
    rw [Scanner.takeRun.eq_def, if_pos inside]
    have later := ih (onLine.advance inner)
    rwa [List.append_assoc, List.singleton_append] at later
  | case2 scanner outside =>
    rw [Scanner.takeRun.eq_def, if_neg outside, List.append_nil]
    exact onLine

theorem journal_takeRun {inClass : Char → Bool} (apart : inClass '\n' = false)
    (onLine : scanner.OnLine lines index line passed) :
    (scanner.takeRun inClass).2.reader.journal = scanner.reader.journal := by
  induction scanner using Scanner.takeRun.induct inClass generalizing passed with
  | case1 scanner inside ih =>
    have inner := ne_of_inClass apart inside.2
    rw [Scanner.takeRun.eq_def, if_pos inside]
    exact (ih (onLine.advance inner)).trans (onLine.journal_advance inner)
  | case2 scanner outside => rw [Scanner.takeRun.eq_def, if_neg outside]

/-- No spelling has a line feed, so that an operator stays in its line. -/
theorem operator {found : Token × Scanner} (onLine : scanner.OnLine lines index line passed)
    (run : scanner.operator? = some found) :
    ∃ (after : Scanner) (kind : Kind) (lexeme : String), found = after.emit kind lexeme ∧
      kind.spelling? = some lexeme ∧ lexeme.toList ≠ [] ∧
      after.OnLine lines index line (passed ++ lexeme.toList) ∧
      after.reader.journal = scanner.reader.journal := by
  rcases operator?_cases run with ⟨kind, pair, same⟩ | ⟨_, kind, single, same⟩
  · rw [Kind.ofSpelling?_eq_some] at pair
    have unbroken := (kind.unbroken_spelling _ pair).1
    rw [String.toList_ofList, List.mem_cons, List.mem_singleton, not_or] at unbroken
    have first := onLine.advance (Ne.symm unbroken.1)
    have second := first.advance (Ne.symm unbroken.2)
    rw [List.append_assoc, List.singleton_append] at second
    have quiet := (first.journal_advance (Ne.symm unbroken.2)).trans (onLine.journal_advance (Ne.symm unbroken.1))
    refine ⟨_, kind, _, same, pair, ?_, ?_, quiet⟩
    · rw [String.toList_ofList]
      exact List.cons_ne_nil _ _
    · rwa [String.toList_ofList]
  · rw [Kind.ofSpelling?_eq_some] at single
    have unbroken := (kind.unbroken_spelling _ single).1
    rw [String.toList_singleton, List.mem_singleton] at unbroken
    have first := onLine.advance (Ne.symm unbroken)
    refine ⟨_, kind, _, same, single, ?_, ?_, onLine.journal_advance (Ne.symm unbroken)⟩
    · rw [String.toList_singleton]
      exact List.cons_ne_nil _ _
    · rwa [String.toList_singleton]

/-- A token that is complete has its lexeme right before the current character. -/
theorem emit {before chars : List Char} {lexeme : String} (kind : Kind)
    (onLine : scanner.OnLine lines index line (before ++ chars)) (spells : lexeme.toList = chars) :
    (scanner.emit kind lexeme).1.Placed lines (scanner.emit kind lexeme).2.reader.spot := by
  have token : (scanner.emit kind lexeme).1 =
      ⟨kind, lexeme, scanner.reader.spot.number, scanner.reader.spot.column⟩ := rfl
  have spot : (scanner.emit kind lexeme).2.reader.spot = scanner.reader.spot := rfl
  subst spells
  rw [token, spot, onLine.spot]
  refine Or.inl
    ⟨line, before, _, onLine.found, Nat.succ_pos index, onLine.text, ?_, List.cons_ne_nil _ _, rfl⟩
  rw [List.length_append, String.length_toList]

end OnLine

namespace Placed

theorem log {event : Event} (placed : scanner.Placed lines) : (scanner.log event).Placed lines :=
  placed.imp (fun ⟨index, line, passed, onLine⟩ => ⟨index, line, passed, onLine.log⟩)
    fun behind => ⟨behind.spot, behind.current, behind.ahead, behind.below⟩

theorem fresh (placed : scanner.Placed lines) : scanner.fresh.Placed lines :=
  placed.imp
    (fun ⟨index, line, passed, onLine⟩ =>
      ⟨index, line, passed, onLine.found, onLine.spot, onLine.text, onLine.below⟩)
    fun behind => ⟨behind.spot, behind.current, behind.ahead, behind.below⟩

theorem advance (placed : scanner.Placed lines) : scanner.advance.Placed lines := by
  rcases placed with ⟨index, line, passed, onLine⟩ | behind
  · cases ahead : scanner.reader.ahead with
    | nil =>
      refine placed_ofReader ahead ?_ ?_
      · rw [onLine.spot, onLine.below]
      · rw [onLine.spot]
        exact onLine.bound
    | cons c rest => exact Or.inl ⟨index, line, _, onLine.advance_of_ahead ahead⟩
  · refine placed_ofReader behind.ahead ?_ ?_
    · rw [behind.below, behind.spot, List.drop_length]
    · exact Nat.le_of_eq (congrArg Spot.number behind.spot)

theorem skipBlanks (placed : scanner.Placed lines) : scanner.skipBlanks.Placed lines := by
  induction scanner using Scanner.skipBlanks.induct with
  | case1 scanner blank ih =>
    rw [Scanner.skipBlanks.eq_def, if_pos blank]
    exact ih placed.advance
  | case2 scanner solid =>
    rw [Scanner.skipBlanks.eq_def, if_neg solid]
    exact placed

theorem onLine (placed : scanner.Placed lines) (inside : scanner.current ≠ endOfText) :
    ∃ index line passed, scanner.OnLine lines index line passed :=
  placed.resolve_right fun behind => inside behind.current

/-- Where an end of the input is found, it has a place of its own. -/
theorem emit_end (placed : scanner.Placed lines) :
    (scanner.emit .endOfInput "").1.Placed lines (scanner.emit .endOfInput "").2.reader.spot := by
  rcases placed with ⟨index, line, passed, onLine⟩ | behind
  · rw [← List.append_nil passed] at onLine
    exact onLine.emit _ String.toList_empty
  · have token : (scanner.emit .endOfInput "").1 = Feed.endToken scanner.reader.spot := rfl
    have spot : (scanner.emit .endOfInput "").2.reader.spot = scanner.reader.spot := rfl
    rw [token, spot, behind.spot]
    exact Or.inr ⟨rfl, rfl⟩

theorem run {inClass : Char → Bool} (apart : inClass '\n' = false) (kind : Kind)
    (placed : scanner.Placed lines) (inside : scanner.current ≠ endOfText) :
    let found := (scanner.takeRun inClass).2.emit kind (String.ofList (scanner.takeRun inClass).1)
    found.1.Placed lines found.2.reader.spot ∧ found.2.Placed lines := by
  obtain ⟨index, line, passed, onLine⟩ := placed.onLine inside
  have behind := onLine.takeRun apart
  exact ⟨behind.emit kind String.toList_ofList, Or.inl ⟨index, line, _, behind.log⟩⟩

theorem operator {found : Token × Scanner} (placed : scanner.Placed lines)
    (inside : scanner.current ≠ endOfText) (run : scanner.operator? = some found) :
    found.1.Placed lines found.2.reader.spot ∧ found.2.Placed lines := by
  obtain ⟨index, line, passed, onLine⟩ := placed.onLine inside
  obtain ⟨after, kind, lexeme, rfl, _, _, behind, _⟩ := onLine.operator run
  exact ⟨behind.emit kind rfl, Or.inl ⟨index, line, _, behind.log⟩⟩

/-- The next token has its place, and so has the scanner behind it. -/
theorem next (placed : scanner.Placed lines) :
    scanner.next.1.Placed lines scanner.next.2.reader.spot ∧ scanner.next.2.Placed lines := by
  induction scanner using next_induction with
  | ended scanner mark =>
    rw [next_of_end mark]
    exact ⟨placed.skipBlanks.emit_end, placed.skipBlanks.log⟩
  | number scanner inside digit =>
    rw [next_of_digit inside digit]
    exact placed.skipBlanks.run (by decide) _ inside
  | word scanner inside digit letter =>
    rw [next_of_letter inside digit letter]
    exact placed.skipBlanks.run (by decide) _ inside
  | operator scanner found inside digit letter run =>
    rw [next_of_operator inside digit letter run]
    exact placed.skipBlanks.operator inside run
  | unknown scanner inside digit letter run ih =>
    rw [next_of_unknown inside digit letter run]
    exact ih placed.skipBlanks.advance.log

end Placed

theorem Placed.nextMany (placed : scanner.Placed lines) (count : Nat) :
    (scanner.nextMany count).Placed lines := by
  induction count with
  | zero => exact placed
  | succ count ih =>
    rw [nextMany_succ]
    exact ih.next.2

end Scanner

namespace Feed

/-- The tokens have their places, and each was found with reading right behind it. -/
def Placed (lines : List String) : Feed → Prop
  | last spot _ => (endToken spot).Placed lines spot
  | more head rest => head.token.Placed lines head.spot ∧ rest.Placed lines

variable {lines : List String} {feed : Feed}

theorem Placed.token (placed : feed.Placed lines) : feed.token.Placed lines feed.spot := by
  cases feed with
  | last => exact placed
  | more => exact placed.1

theorem Placed.advance (placed : feed.Placed lines) : feed.advance.Placed lines := by
  cases feed with
  | last => exact placed
  | more => exact placed.2

end Feed

theorem Scanner.Placed.feed {lines : List String} {scanner : Scanner} (placed : scanner.Placed lines) :
    scanner.feed.Placed lines := by
  induction scanner using feed_induction with
  | ended scanner last =>
    obtain ⟨token, _⟩ := placed.fresh.next
    obtain ⟨_, _, ⟨same, _⟩ | ⟨other, _⟩⟩ := scanner.fresh.next_passes
    · rw [same] at token
      rw [feed_of_end last]
      exact token
    · exact absurd last other
  | more scanner more ih =>
    obtain ⟨token, behind⟩ := placed.fresh.next
    rw [feed_of_more more]
    exact ⟨token, ih behind⟩

namespace Token.Placed

variable {lines : List String} {token : Token} {spot : Spot}

/-- A line is current when a token is found, and it is the token's own, unless all lines are read. -/
theorem text (placed : token.Placed lines spot) :
    (∃ line, lines[token.line - 1]? = some line ∧ 1 ≤ token.line ∧ token.column ≠ 0 ∧
      spot.text = some line) ∨
      token = ⟨.endOfInput, "", lines.length, 0⟩ ∧ spot.text = none := by
  rcases placed with ⟨line, before, behind, inLine⟩ | ⟨same, rfl⟩
  · refine Or.inl ⟨line, inLine.found, inLine.positive, ?_, ?_⟩
    · rw [inLine.column]
      exact Nat.succ_ne_zero _
    · rw [inLine.spot]
  · exact Or.inr ⟨same, rfl⟩

/-- A token tells the place where reading stood when it was found. -/
theorem position (placed : token.Placed lines spot) :
    spot.number = token.line ∧ spot.column = token.column := by
  rcases placed with ⟨line, before, behind, inLine⟩ | ⟨rfl, rfl⟩
  · rw [inLine.spot]
    exact ⟨rfl, rfl⟩
  · exact ⟨rfl, rfl⟩

/-- What a run writes of an error at the token that was found last: in a quiet run the token's line above it,
unless all lines have been read. -/
theorem reported (placed : token.Placed lines spot) (diagnostic : Diagnostic) (verbose : Bool) :
    ∃ above, (Event.reported spot diagnostic).diagnosticLines verbose =
        above ++ [marked token.column diagnostic.message] ∧
      (verbose = true → above = []) ∧
      (verbose = false →
        (∃ line, lines[token.line - 1]? = some line ∧ 1 ≤ token.line ∧ token.column ≠ 0 ∧
          above = [echo token.line line]) ∨
        token = ⟨.endOfInput, "", lines.length, 0⟩ ∧ above = []) := by
  obtain ⟨number, column⟩ := placed.position
  rw [Event.diagnosticLines, number, column]
  refine ⟨_, rfl, ?_, ?_⟩
  · rintro rfl
    split <;> rfl
  · rintro rfl
    rcases placed.text with ⟨line, found, positive, inner, current⟩ | ⟨behind, current⟩
    · rw [current]
      exact Or.inl ⟨line, found, positive, inner, rfl⟩
    · rw [current]
      exact Or.inr ⟨behind, rfl⟩

theorem inLine (placed : token.Placed lines spot) (inner : token.kind ≠ .endOfInput) :
    ∃ line before behind, token.InLine lines line before behind spot :=
  placed.resolve_right fun ⟨same, _⟩ => inner (congrArg Token.kind same)

end Token.Placed

namespace Analysis

theorem invariant_placed (lines : List String) : Invariant fun state => state.feed.Placed lines :=
  .ofFeed (Feed.Placed lines) Feed.Placed.advance

/-- However often an analysis of the text has been made, wherever in the text the first one began, and whatever
had happened before, the tokens to come have their places. -/
theorem again_placed (lines : List String) (earlier : Journal) (skipped calls : Nat) :
    (again calls (.ofScanner ((Scanner.ofReader
      { Reader.ofLines lines with journal := earlier }).nextMany skipped))).feed.Placed lines :=
  (invariant_placed lines).again calls
    ((Scanner.placed_ofReader rfl rfl (Nat.zero_le _)).nextMany skipped).feed

end Analysis

end AdaFront
