import AdaFront.Proofs.Places

namespace AdaFront

/-- A stretch of a line, from `start` up to but not including `stop`. -/
structure Span where
  line : Nat
  start : Nat
  stop : Nat
deriving DecidableEq, Repr

namespace Span

/-- The one span ends before the other begins. -/
def Before (one other : Span) : Prop :=
  one.line < other.line ∨ one.line = other.line ∧ one.stop ≤ other.start

/-- The characters stand in the text at this place. -/
def Holds (lines : List String) (span : Span) (chars : List Char) : Prop :=
  ∃ index line before behind, lines[index]? = some line ∧
    line.toList.map Text.lower = before ++ chars ++ behind ∧
    span = ⟨index + 1, before.length, before.length + chars.length⟩

/-- Reading has gone on behind the span. -/
structure Passed (span : Span) (spot : Spot) : Prop where
  line : span.line ≤ spot.number
  stop : spot.text = none ∨ span.line < spot.number ∨ span.stop < spot.column

end Span

/-- Where the lexeme of a token stands. -/
def Token.span (token : Token) : Span :=
  ⟨token.line, token.column - 1 - token.lexeme.length, token.column - 1⟩

/-- What is found in the text: the lexeme of a token or an unknown symbol, with its place. -/
def Event.finding? : Event → Option (Span × List Char)
  | .scanned token => if token.kind = .endOfInput then none else some (token.span, token.lexeme.toList)
  | .reported spot (.unknownSymbol symbol) =>
    some (⟨spot.number, spot.column - 2, spot.column - 1⟩, [symbol])
  | _ => none

theorem Event.finding?_scanned {token : Token} (inner : token.kind ≠ .endOfInput) :
    finding? (.scanned token) = some (token.span, token.lexeme.toList) :=
  if_neg inner

/-- What has been found in the text so far, the latest first. -/
def Journal.findings (journal : Journal) : List (Span × List Char) :=
  journal.filterMap Event.finding?

/-- If the event is a report, it is one of an unknown symbol, made in the line of the symbol when one more
character has been read. -/
def Event.AtSymbol (lines : List String) : Event → Prop
  | .reported spot diagnostic =>
    ∃ index line position symbol, diagnostic = .unknownSymbol symbol ∧ lines[index]? = some line ∧
      (line.toList.map Text.lower)[position]? = some symbol ∧ spot = ⟨some line, index + 1, position + 2⟩
  | _ => True

/-- What a reader has found stands in the text one behind the other, and reading is behind it all. -/
structure Reader.Tracks (lines : List String) (reader : Reader) : Prop where
  reports : ∀ event ∈ reader.journal, event.AtSymbol lines
  holds : ∀ finding ∈ reader.journal.findings, finding.2 ≠ [] ∧ finding.1.Holds lines finding.2
  ordered : reader.journal.findings.Pairwise fun later earlier => earlier.1.Before later.1
  passed : ∀ finding ∈ reader.journal.findings, finding.1.Passed reader.spot

namespace Reader

variable {lines : List String} {reader : Reader}

theorem tracks_ofLines (lines : List String) : (ofLines lines).Tracks lines :=
  ⟨List.forall_mem_nil _, List.forall_mem_nil _, .nil, List.forall_mem_nil _⟩

/-- Reading goes on behind all that has been found. -/
theorem Tracks.next (tracks : reader.Tracks lines) : reader.next.2.Tracks lines := by
  refine next_keeps tracks (fun {reader} tracks => ?_) fun line below _ => ?_
  · unfold take
    split
    · exact ⟨tracks.reports, tracks.holds, tracks.ordered, fun finding member =>
        ⟨(tracks.passed finding member).line, Or.inl rfl⟩⟩
    · refine ⟨tracks.reports, tracks.holds, tracks.ordered, fun finding member => ?_⟩
      obtain ⟨above, stop⟩ := tracks.passed finding member
      exact ⟨above, stop.imp_right (Or.imp_right Nat.lt_succ_of_lt)⟩
  · refine ⟨List.forall_mem_cons.mpr ⟨trivial, tracks.reports⟩, tracks.holds,
      tracks.ordered, fun finding member => ?_⟩
    have above := Nat.lt_succ_of_le (tracks.passed finding member).line
    exact ⟨Nat.le_of_lt above, Or.inr (Or.inl above)⟩

/-- An event without a find changes nothing. -/
theorem Tracks.log {event : Event} (tracks : reader.Tracks lines) (nothing : event.finding? = none)
    (atSymbol : event.AtSymbol lines) : (reader.log event).Tracks lines := by
  have same : (reader.log event).journal.findings = reader.journal.findings :=
    List.filterMap_cons_none nothing
  refine ⟨List.forall_mem_cons.mpr ⟨atSymbol, tracks.reports⟩, ?_, ?_, ?_⟩
  all_goals rw [same]
  · exact tracks.holds
  · exact tracks.ordered
  · exact tracks.passed

end Reader

namespace Scanner

variable {lines : List String} {index : Nat} {line : String} {passed chars : List Char}
  {scanner after : Scanner}

namespace OnLine

/-- What has been passed stands in the line itself, since its line feed is still to come. -/
theorem line_begins (onLine : scanner.OnLine lines index line passed) :
    ∃ behind, line.toList.map Text.lower = passed ++ behind := by
  have feed : Text.lower '\n' = '\n' := by decide
  have text := congrArg List.dropLast onLine.text
  rw [List.map_append, List.map_singleton, feed, List.dropLast_concat,
    List.dropLast_append_of_ne_nil (List.cons_ne_nil _ _)] at text
  exact ⟨_, text⟩

theorem holds (onLine : scanner.OnLine lines index line (passed ++ chars)) :
    Span.Holds lines ⟨index + 1, passed.length, passed.length + chars.length⟩ chars := by
  obtain ⟨behind, text⟩ := onLine.line_begins
  exact ⟨index, line, passed, behind, onLine.found, text, rfl⟩

end OnLine

theorem tracks_skipBlanks (tracks : scanner.reader.Tracks lines) : scanner.skipBlanks.reader.Tracks lines := by
  induction scanner using Scanner.skipBlanks.induct with
  | case1 scanner blank ih =>
    rw [Scanner.skipBlanks.eq_def, if_pos blank]
    exact ih tracks.next
  | case2 scanner solid =>
    rw [Scanner.skipBlanks.eq_def, if_neg solid]
    exact tracks

/-- What is found next begins where the scanner stands, so it stands behind all that was found before. -/
theorem tracks_find {event : Event} (tracks : scanner.reader.Tracks lines)
    (onLine : scanner.OnLine lines index line passed)
    (behind : after.OnLine lines index line (passed ++ chars)) (present : chars ≠ [])
    (journal : after.reader.journal = event :: scanner.reader.journal)
    (finding : event.finding? = some (⟨index + 1, passed.length, passed.length + chars.length⟩, chars))
    (atSymbol : event.AtSymbol lines) : after.reader.Tracks lines := by
  have findings : after.reader.journal.findings =
      (⟨index + 1, passed.length, passed.length + chars.length⟩, chars) :: scanner.reader.journal.findings := by
    rw [journal, Journal.findings, List.filterMap_cons_some finding, Journal.findings]
  -- A line is current, so that whatever has been passed stands above it or left of the current character.
  have before : ∀ earlier ∈ scanner.reader.journal.findings,
      earlier.1.line < index + 1 ∨ earlier.1.line = index + 1 ∧ earlier.1.stop ≤ passed.length := by
    intro earlier member
    obtain ⟨above, stop⟩ := tracks.passed earlier member
    rw [onLine.spot] at above stop
    rcases stop with none | less | inside
    · cases none
    · exact Or.inl less
    · rcases Nat.lt_or_eq_of_le above with less | same
      · exact Or.inl less
      · exact Or.inr ⟨same, Nat.le_of_lt_succ inside⟩
  refine ⟨?_, ?_, ?_, ?_⟩
  · rw [journal]
    exact List.forall_mem_cons.mpr ⟨atSymbol, tracks.reports⟩
  · rw [findings]
    exact List.forall_mem_cons.mpr ⟨⟨present, behind.holds⟩, tracks.holds⟩
  · rw [findings]
    exact List.pairwise_cons.mpr ⟨before, tracks.ordered⟩
  · rw [findings, behind.spot, List.length_append]
    refine List.forall_mem_cons.mpr ⟨⟨Nat.le_refl _, Or.inr (Or.inr (Nat.lt_succ_self _))⟩, ?_⟩
    intro earlier member
    rcases before earlier member with less | ⟨same, stop⟩
    · exact ⟨Nat.le_of_lt less, Or.inr (Or.inl less)⟩
    · refine ⟨Nat.le_of_eq same, Or.inr (Or.inr ?_)⟩
      exact Nat.lt_succ_of_le (Nat.le_trans stop (Nat.le_add_right _ _))

/-- A token that is complete stands where the scanner has come from since it began. -/
theorem tracks_emit {kind : Kind} {lexeme : String} (tracks : scanner.reader.Tracks lines)
    (onLine : scanner.OnLine lines index line passed)
    (behind : after.OnLine lines index line (passed ++ lexeme.toList)) (present : lexeme.toList ≠ [])
    (inner : kind ≠ .endOfInput) (journal : after.reader.journal = scanner.reader.journal) :
    (after.emit kind lexeme).2.reader.Tracks lines := by
  have logged : (after.emit kind lexeme).2.reader.journal =
      .scanned (after.emit kind lexeme).1 :: scanner.reader.journal := congrArg (List.cons _) journal
  refine tracks_find tracks onLine behind.log present logged ?_ trivial
  have token : (after.emit kind lexeme).1 =
      ⟨kind, lexeme, index + 1, (passed ++ lexeme.toList).length + 1⟩ := by
    rw [emit, behind.spot]
  have start : (passed ++ lexeme.toList).length + 1 - 1 - lexeme.length = passed.length := by
    rw [List.length_append, String.length_toList]
    omega
  rw [token, Event.finding?_scanned inner, Token.span, start, List.length_append]
  rfl

theorem tracks_run {inClass : Char → Bool} (apart : inClass '\n' = false) {kind : Kind}
    (inner : kind ≠ .endOfInput) (tracks : scanner.reader.Tracks lines)
    (onLine : scanner.OnLine lines index line passed) (inside : scanner.current ≠ endOfText)
    (first : inClass scanner.current = true) :
    ((scanner.takeRun inClass).2.emit kind
      (String.ofList (scanner.takeRun inClass).1)).2.reader.Tracks lines := by
  have present : (scanner.takeRun inClass).1 ≠ [] := by
    rw [takeRun.eq_def, if_pos ⟨inside, first⟩]
    exact List.cons_ne_nil _ _
  refine tracks_emit tracks onLine ?_ ?_ inner (onLine.journal_takeRun apart)
  · rw [String.toList_ofList]
    exact onLine.takeRun apart
  · rwa [String.toList_ofList]

theorem tracks_operator {found : Token × Scanner} (tracks : scanner.reader.Tracks lines)
    (onLine : scanner.OnLine lines index line passed) (run : scanner.operator? = some found) :
    found.2.reader.Tracks lines := by
  obtain ⟨after, kind, lexeme, rfl, spelled, present, behind, journal⟩ := onLine.operator run
  refine tracks_emit tracks onLine behind present ?_ journal
  rintro rfl
  cases spelled

/-- An unknown symbol is reported when the character behind it has been read, which is in the same line. -/
theorem tracks_skipUnknown (tracks : scanner.reader.Tracks lines)
    (onLine : scanner.OnLine lines index line passed) (inner : scanner.current ≠ '\n') :
    scanner.skipUnknown.reader.Tracks lines := by
  have behind := onLine.advance inner
  have spot := behind.spot
  rw [List.length_append, List.length_singleton] at spot
  have logged : scanner.skipUnknown.reader.journal =
      .reported scanner.advance.reader.spot (.unknownSymbol scanner.current) :: scanner.reader.journal :=
    congrArg (List.cons _) (onLine.journal_advance inner)
  have after : scanner.skipUnknown.OnLine lines index line (passed ++ [scanner.current]) := behind.log
  refine tracks_find tracks onLine after (List.cons_ne_nil _ _) logged ?_ ?_
  · rw [spot]
    rfl
  · obtain ⟨rest, text⟩ := behind.line_begins
    refine ⟨index, line, passed.length, scanner.current, rfl, onLine.found, ?_, spot⟩
    rw [text, List.append_assoc, List.getElem?_append_right (Nat.le_refl _), Nat.sub_self]
    rfl

/-- The search for a token finds what stands behind all that was found before. -/
theorem tracks_next (placed : scanner.Placed lines) (tracks : scanner.reader.Tracks lines) :
    scanner.next.2.reader.Tracks lines := by
  induction scanner using next_induction with
  | ended scanner mark =>
    rw [next_of_end mark]
    exact (tracks_skipBlanks tracks).log rfl trivial
  | number scanner inside digit =>
    obtain ⟨index, line, passed, onLine⟩ := placed.skipBlanks.onLine inside
    rw [next_of_digit inside digit]
    exact tracks_run (by decide) nofun (tracks_skipBlanks tracks) onLine inside digit
  | word scanner inside digit letter =>
    obtain ⟨index, line, passed, onLine⟩ := placed.skipBlanks.onLine inside
    rw [next_of_letter inside digit letter]
    have first : isWordCharacter scanner.skipBlanks.current = true := by simp [isWordCharacter, letter]
    exact tracks_run (by decide) (hasWordKind_wordKind _).ne_endOfInput (tracks_skipBlanks tracks) onLine inside
      first
  | operator scanner found inside digit letter run =>
    obtain ⟨index, line, passed, onLine⟩ := placed.skipBlanks.onLine inside
    rw [next_of_operator inside digit letter run]
    exact tracks_operator (tracks_skipBlanks tracks) onLine run
  | unknown scanner inside digit letter run ih =>
    obtain ⟨index, line, passed, onLine⟩ := placed.skipBlanks.onLine inside
    have inner : scanner.skipBlanks.current ≠ '\n' := by
      obtain ⟨_, _, solid⟩ := Passes.skipBlanks scanner
      intro feed
      rw [feed] at solid
      exact absurd solid (by decide)
    rw [next_of_unknown inside digit letter run]
    exact ih placed.skipBlanks.advance.log (tracks_skipUnknown (tracks_skipBlanks tracks) onLine inner)

theorem tracks_nextMany (placed : scanner.Placed lines) (tracks : scanner.reader.Tracks lines) (count : Nat) :
    (scanner.nextMany count).reader.Tracks lines := by
  induction count with
  | zero => exact tracks
  | succ count ih =>
    rw [nextMany_succ]
    exact tracks_next (placed.nextMany count) ih

/-- Every token that has been found stays in the journal. -/
theorem scanned_mem_journal (scanner : Scanner) {index later : Nat} (less : index < later) :
    .scanned (scanner.nextMany index).next.1 ∈ (scanner.nextMany later).reader.journal := by
  induction later with
  | zero => cases less
  | succ later ih =>
    obtain ⟨newer, journal⟩ := (scanner.nextMany later).journal_next_cons
    rw [nextMany_succ, journal]
    rcases Nat.lt_or_eq_of_le (Nat.le_of_lt_succ less) with before | rfl
    · exact List.mem_cons_of_mem _ (List.mem_append_right _ (ih before))
    · exact List.mem_cons_self

end Scanner

/-- The numbers of a span tell where in its line the characters stand. -/
theorem Span.Holds.extract {lines : List String} {span : Span} {chars : List Char}
    (holds : span.Holds lines chars) :
    ∃ line, lines[span.line - 1]? = some line ∧ 1 ≤ span.line ∧ span.line ≤ lines.length ∧
      span.stop = span.start + chars.length ∧ span.stop ≤ line.length ∧
      (line.toList.map Text.lower).extract span.start span.stop = chars := by
  obtain ⟨index, line, before, behind, found, text, rfl⟩ := holds
  have inside : index < lines.length := (List.getElem?_eq_some_iff.mp found).1
  have length := congrArg List.length text
  rw [List.length_map, String.length_toList, List.length_append, List.length_append] at length
  refine ⟨line, found, Nat.succ_pos index, inside, rfl, ?_, ?_⟩
  · rw [length]
    exact Nat.le_add_right _ _
  · rw [text, List.extract_eq_take_drop, Nat.add_sub_cancel_left, List.append_assoc, List.drop_left,
      List.take_left]

namespace Scanner

/-- A token other than the end of the input is among the finds. -/
theorem finding_of_inner {token : Token} (inner : token.kind ≠ .endOfInput) {journal : Journal}
    (member : .scanned token ∈ journal) : (token.span, token.lexeme.toList) ∈ journal.findings :=
  List.mem_filterMap.mpr ⟨_, member, Event.finding?_scanned inner⟩

/-- The tokens that are found one after another tell where their lexemes stand. Each is found with reading one
character behind it, still in its line, and they stand one behind the other. Where an unknown symbol is
reported reading is one character behind it, too, and no unknown symbol stands in a token or is reported
twice. -/
theorem scan_positions (lines : List String) :
    let scanner (count : Nat) := (ofLines lines).nextMany count
    let token (index : Nat) := (scanner index).next.1
    (∀ index, (token index).kind ≠ .endOfInput →
      ∃ line, lines[(token index).line - 1]? = some line ∧
        1 ≤ (token index).line ∧ (token index).line ≤ lines.length ∧
        (token index).lexeme.length + 1 ≤ (token index).column ∧ (token index).column ≤ line.length + 1 ∧
        (line.toList.map Text.lower).extract ((token index).column - 1 - (token index).lexeme.length)
          ((token index).column - 1) = (token index).lexeme.toList ∧
        (scanner (index + 1)).reader.spot = ⟨some line, (token index).line, (token index).column⟩) ∧
    (∀ index later, index < later → (token index).kind ≠ .endOfInput → (token later).kind ≠ .endOfInput →
      ((token index).line < (token later).line ∨ (token index).line = (token later).line ∧
        (token index).span.start < (token later).span.start) ∧
      ((token index).line = (token later).line → (token index).span.stop ≤ (token later).span.start)) ∧
    (∀ count spot diagnostic, .reported spot diagnostic ∈ (scanner count).reader.journal →
      ∃ index line position symbol, diagnostic = .unknownSymbol symbol ∧ lines[index]? = some line ∧
        (line.toList.map Text.lower)[position]? = some symbol ∧
        spot = ⟨some line, index + 1, position + 2⟩) ∧
    ∀ count, (scanner count).reader.journal.findings.Pairwise fun later earlier =>
      earlier.1.Before later.1 := by
  intro scanner token
  have placed (count : Nat) : (scanner count).Placed lines :=
    (placed_ofReader rfl rfl (Nat.zero_le _)).nextMany count
  have tracks (count : Nat) : (scanner count).reader.Tracks lines :=
    tracks_nextMany (placed_ofReader rfl rfl (Nat.zero_le _)) (Reader.tracks_ofLines lines).next count
  have behind (index : Nat) : scanner (index + 1) = (scanner index).next.2 := nextMany_succ (ofLines lines) index
  have holds (index : Nat) (inner : (token index).kind ≠ .endOfInput) :
      (token index).lexeme.toList ≠ [] ∧ (token index).span.Holds lines (token index).lexeme.toList :=
    (tracks (index + 1)).holds _
      (finding_of_inner inner ((ofLines lines).scanned_mem_journal (Nat.lt_succ_self index)))
  refine ⟨fun index inner => ?_, fun index later less inner inner' => ?_, fun count spot diagnostic member => ?_,
    fun count => (tracks count).ordered⟩
  · obtain ⟨present, holds⟩ := holds index inner
    obtain ⟨line, found, positive, bound, length, inside, text⟩ := holds.extract
    have wide := List.length_pos_iff.mpr present
    rw [String.length_toList] at length wide
    dsimp only [Token.span] at found positive bound length inside text
    refine ⟨line, found, positive, bound, by omega, by omega, text, ?_⟩
    obtain ⟨line', _, _, inLine⟩ := (placed index).next.1.inLine inner
    cases Option.some.inj (found.symm.trans inLine.found)
    rw [behind, inLine.spot]
  · -- The later token is the latest find when it has been found, and the other one is among the finds below it.
    obtain ⟨newer, journal⟩ := (scanner later).journal_next_cons
    have ordered := (tracks (later + 1)).ordered
    rw [behind, journal, Journal.findings, List.filterMap_cons_some (Event.finding?_scanned inner')] at ordered
    have member := finding_of_inner inner
      (List.mem_append_right newer ((ofLines lines).scanned_mem_journal less))
    have before : (token index).span.Before (token later).span := (List.pairwise_cons.mp ordered).1 _ member
    obtain ⟨present, holds⟩ := holds index inner
    obtain ⟨_, _, _, _, length, _⟩ := holds.extract
    have wide := List.length_pos_iff.mpr present
    rcases before with above | ⟨same, apart⟩
    · exact ⟨Or.inl above, fun same => absurd same (Nat.ne_of_lt above)⟩
    · exact ⟨Or.inr ⟨same, by omega⟩, fun _ => apart⟩
  · exact (tracks count).reports _ member

end Scanner

end AdaFront
