import Mathlib.Data.List.TakeWhile
import AdaFront.Proofs.Accounting
import AdaFront.Proofs.Characters

namespace AdaFront

/-- A character that is no blank. -/
def isSolid (c : Char) : Bool :=
  !Text.isBlank c

theorem isSolid_endOfText : isSolid endOfText = true :=
  congrArg not Scanner.isBlank_endOfText

theorem isSolid_lower (c : Char) : isSolid (Text.lower c) = isSolid c :=
  congrArg not (Text.isBlank_lower c)

theorem isSolid_of_isWordCharacter {c : Char} (word : isWordCharacter c = true) : isSolid c = true :=
  congrArg not (Text.isBlank_of_isWordCharacter word)

theorem Kind.solid_spelling (kind : Kind) :
    ∀ text ∈ kind.spelling?, ∀ c ∈ text.toList, isSolid c = true := by
  have each : (kind.spelling?.all fun text => text.toList.all isSolid) = true := by
    cases kind <;> rfl
  intro text spelled
  rw [Option.mem_def.mp spelled] at each
  exact List.all_eq_true.mp each

/-- A piece that is no blank. -/
def Piece.isSolid : Piece → Bool
  | .blank _ => false
  | .token _ _ | .unknown _ => true

/-- The tokens and the unknown characters are the text without its blanks. -/
theorem Scans.solid {text : List Char} {pieces : List Piece} (scans : Scans text pieces) :
    (pieces.filter Piece.isSolid).flatMap Piece.chars = text.filter isSolid := by
  have word {chars : List Char} (each : ∀ c ∈ chars, isWordCharacter c = true) :
      chars.filter isSolid = chars :=
    List.filter_eq_self.mpr fun c member => isSolid_of_isWordCharacter (each c member)
  induction scans with
  | done => rfl
  | @blank c rest pieces blank _ ih =>
    have apart : isSolid c = false := congrArg not blank
    rw [List.filter_cons_of_neg (by rw [Piece.isSolid]; exact Bool.false_ne_true), ih,
      List.filter_cons_of_neg (by rw [apart]; exact Bool.false_ne_true)]
  | number _ digits _ _ ih =>
    rw [List.filter_cons_of_pos rfl, List.flatMap_cons, ih, List.filter_append,
      word fun c member => Text.isWordCharacter_of_isDigit (digits c member), Piece.chars, String.toList_ofList]
  | word _ letters _ _ _ ih =>
    rw [List.filter_cons_of_pos rfl, List.flatMap_cons, ih, List.filter_append, word letters, Piece.chars,
      String.toList_ofList]
  | @pair first second kind _ _ _ spelled _ ih =>
    have both := kind.solid_spelling _ spelled
    rw [String.toList_ofList] at both
    rw [List.filter_cons_of_pos rfl, List.flatMap_cons, ih, Piece.chars, String.toList_ofList,
      List.filter_cons_of_pos (both first (by simp)), List.filter_cons_of_pos (both second (by simp))]
    rfl
  | @single c _ _ _ symbol _ _ _ ih | @unknown c _ _ symbol _ _ _ ih =>
    have solid : isSolid c = true := congrArg not symbol.1
    rw [List.filter_cons_of_pos rfl, List.flatMap_cons, ih, Piece.chars, List.filter_cons_of_pos solid]
    simp

namespace Text

theorem filter_withoutReturn (line : List Char) :
    (withoutReturn line).filter isSolid = line.filter isSolid := by
  unfold withoutReturn
  split
  next last =>
    obtain ⟨before, rfl⟩ := List.getLast?_eq_some_iff.mp last
    rw [List.dropLast_concat, List.filter_append]
    exact (List.append_nil _).symm
  next => rfl

/-- What is not in the lines of a text are blanks. -/
theorem filter_linesFrom (pending rest : List Char) :
    ((linesFrom pending rest).flatMap fun line => line.toList ++ ['\n']).filter isSolid =
      (pending.reverse ++ rest).filter isSolid := by
  induction rest generalizing pending with
  | nil =>
    rw [linesFrom]
    cases pending with
    | nil => rfl
    | cons c pending =>
      rw [List.isEmpty_cons, if_neg Bool.false_ne_true, List.flatMap_singleton, String.toList_ofList,
        List.filter_append, List.filter_append]
      rfl
  | cons c rest ih =>
    rw [linesFrom]
    split
    next feed =>
      subst feed
      rw [List.flatMap_cons, List.filter_append, ih, String.toList_ofList, List.filter_append,
        filter_withoutReturn, List.filter_append, List.filter_append, List.append_assoc]
      rfl
    next =>
      rw [ih, List.reverse_cons, List.append_assoc]
      rfl

theorem filter_lines (source : String) :
    ((lines source).flatMap fun line => line.toList ++ ['\n']).filter isSolid = source.toList.filter isSolid :=
  filter_linesFrom [] source.toList

theorem mem_of_mem_lines {source line : String} {c : Char} (solid : isSolid c = true)
    (member : line ∈ lines source) (inside : c ∈ line.toList) : c ∈ source.toList := by
  have among : c ∈ ((lines source).flatMap fun line => line.toList ++ ['\n']).filter isSolid :=
    List.mem_filter.mpr ⟨List.mem_flatMap.mpr ⟨line, member, List.mem_append_left _ inside⟩, solid⟩
  rw [filter_lines] at among
  exact (List.mem_filter.mp among).1

theorem map_takeWhile_eq_iff {chars : List Char} :
    (chars.takeWhile (· ≠ endOfText)).map lower = chars.map lower ↔ endOfText ∉ chars := by
  constructor
  · intro whole member
    have length := congrArg List.length whole
    rw [List.length_map, List.length_map] at length
    have all := List.takeWhile_eq_self_iff.mp ((List.takeWhile_prefix _).eq_of_length length)
    exact absurd rfl (of_decide_eq_true (all endOfText member))
  · intro apart
    refine congrArg _ (List.takeWhile_eq_self_iff.mpr fun c member => decide_eq_true ?_)
    rintro rfl
    exact apart member

/-- Small letters are blanks or marks of the end where the letters of the text are. -/
theorem filter_takeWhile_lower (chars : List Char) :
    ((chars.map lower).takeWhile (· ≠ endOfText)).filter isSolid =
      ((chars.filter isSolid).takeWhile (· ≠ endOfText)).map lower := by
  have inside : ((fun c => decide (c ≠ endOfText)) ∘ lower) = fun c => decide (c ≠ endOfText) := by
    funext c
    exact decide_eq_decide.mpr (not_congr lower_eq_endOfText_iff)
  have solid : (isSolid ∘ lower) = isSolid := funext isSolid_lower
  have mark : (fun c => !isSolid c || decide (c ≠ endOfText)) = fun c => decide (c ≠ endOfText) := by
    funext c
    by_cases same : c = endOfText
    · subst same
      decide
    · rw [decide_eq_true same, Bool.or_true]
  rw [List.takeWhile_map, List.filter_map, inside, solid, List.takeWhile_filter, mark]

end Text

/-- The symbol of a diagnostic that nothing can begin with. -/
def Diagnostic.symbol? : Diagnostic → Option Char
  | .unknownSymbol symbol => some symbol
  | _ => none

def Event.line? : Event → Option String
  | .lineRead _ text => some text
  | _ => none

namespace Journal

/-- The unknown symbols that have been reported, the earliest first. -/
def symbols (journal : Journal) : List Char :=
  journal.diagnostics.filterMap Diagnostic.symbol?

/-- The lines that have been read, the earliest first. -/
def linesRead (journal : Journal) : List String :=
  journal.reverse.filterMap Event.line?

theorem linesRead_append (newer older : Journal) :
    linesRead (newer ++ older) = linesRead older ++ linesRead newer := by
  rw [linesRead, List.reverse_append, List.filterMap_append, linesRead, linesRead]

theorem linesRead_cons {event : Event} (other : event.line? = none) (journal : Journal) :
    linesRead (event :: journal) = linesRead journal := by
  rw [linesRead, List.reverse_cons, List.filterMap_append, List.filterMap_cons_none other, List.filterMap_nil,
    List.append_nil, linesRead]

end Journal

namespace Analysis

theorem isView_symbols : IsView Journal.symbols fun newer older => older ++ newer where
  append newer older := by
    rw [Journal.symbols, Journal.diagnostics_append, List.filterMap_append, Journal.symbols, Journal.symbols]
  quiet {event} journal other := by
    rw [Journal.symbols, Journal.diagnostics_cons, List.filterMap_append]
    cases event with
    | reported spot diagnostic =>
      cases diagnostic with
      | unknownSymbol symbol => exact absurd (.unknown spot symbol) other
      | _ => exact List.append_nil _
    | _ => exact List.append_nil _

theorem isView_linesRead : IsView Journal.linesRead fun newer older => older ++ newer where
  append := Journal.linesRead_append
  quiet {event} journal other := by
    refine Journal.linesRead_cons ?_ journal
    cases event with
    | lineRead number text => exact absurd (.line number text) other
    | _ => rfl

end Analysis

/-- The lines that a reader has read are those above the ones below it. -/
structure Reader.HasRead (lines : List String) (reader : Reader) : Prop where
  read : reader.journal.linesRead = lines.take reader.spot.number
  below : reader.below = lines.drop reader.spot.number

theorem Reader.hasRead_ofLines (lines : List String) : (Reader.ofLines lines).HasRead lines :=
  ⟨rfl, rfl⟩

theorem Reader.HasRead.log {lines : List String} {reader : Reader} {event : Event}
    (hasRead : reader.HasRead lines) (other : event.line? = none) : (reader.log event).HasRead lines :=
  ⟨(Journal.linesRead_cons other reader.journal).trans hasRead.read, hasRead.below⟩

theorem Reader.keeps_hasRead (lines : List String) : Scanner.Keeps (Reader.HasRead lines) where
  scanned hasRead := hasRead.log rfl
  unknown hasRead := hasRead.log rfl
  next {reader} hasRead := by
    refine Reader.next_keeps hasRead (fun {reader} hasRead => ?_) fun line below next => ?_
    · unfold Reader.take
      split
      · exact ⟨hasRead.read, hasRead.below⟩
      · exact ⟨hasRead.read, hasRead.below⟩
    · obtain ⟨found, behind⟩ := next_of_drop (next.symm.trans hasRead.below)
      have whole : (reader.startLine line below).journal =
          [.lineRead (reader.spot.number + 1) line] ++ reader.journal := rfl
      have taken : lines.take (reader.spot.number + 1) = lines.take reader.spot.number ++ [line] := by
        rw [List.take_add_one, found]
        rfl
      refine ⟨?_, behind⟩
      rw [whole, Journal.linesRead_append, hasRead.read]
      exact taken.symm

/-- The end of the input stands behind the last line, or at a mark in the text. -/
theorem Scanner.Placed.at_end {lines : List String} {scanner : Scanner} (placed : scanner.Placed lines)
    (hasRead : scanner.reader.HasRead lines) (mark : scanner.current = endOfText) :
    scanner.reader.journal.linesRead = lines ∨ ∃ line ∈ lines, endOfText ∈ line.toList := by
  rcases placed with ⟨index, line, passed, onLine⟩ | behind
  · right
    have inside : endOfText ∈ (line.toList ++ ['\n']).map Text.lower := by
      rw [onLine.text, mark]
      exact List.mem_append_right _ List.mem_cons_self
    obtain ⟨c, member, same⟩ := List.mem_map.mp inside
    rw [Text.lower_eq_endOfText_iff] at same
    subst same
    refine ⟨line, List.mem_of_getElem? onLine.found, (List.mem_append.mp member).resolve_right ?_⟩
    decide
  · left
    rw [hasRead.read, behind.spot, List.take_length]

/-- The text before a scanner falls into pieces, whose unknown symbols have been reported when all tokens and
the end behind them have been found. -/
theorem Scanner.exists_pieces (scanner : Scanner) (fresh : scanner.diagnostics = []) :
    ∃ pieces, Scans scanner.text pieces ∧
      scanner.tokens.1.map Token.word = pieces.filterMap Piece.token? ∧
      ∀ count, scanner.tokens.1.length < count →
        (scanner.nextMany count).reader.journal.symbols = pieces.filterMap Piece.unknown? := by
  obtain ⟨pieces, scans, same, diagnostics⟩ := scanner.tokens_scans
  refine ⟨pieces, scans, same.symm, fun count less => ?_⟩
  have reported : (scanner.nextMany count).reader.journal.diagnostics =
      (pieces.filterMap Piece.unknown?).map .unknownSymbol := by
    have last := ((scanner.nextMany_next count).2 less).trans diagnostics
    rwa [fresh, List.nil_append] at last
  have symbol : Diagnostic.symbol? ∘ .unknownSymbol = some := rfl
  rw [Journal.symbols, reported, List.filterMap_map, symbol, List.filterMap_some]

namespace Analysis

/-- An analysis that goes through has come to the end of the input, where its scanner stands. -/
theorem compile_reads_all {scanner : Scanner} (finished : (compile (.ofScanner scanner)).rejection = none)
    {α : Type} {view : Journal → α} {join : α → α → α} (isView : IsView view join) :
    (compile (.ofScanner scanner)).state.feed.tokens = [] ∧
      ∃ count, scanner.tokens.1.length < count ∧ (scanner.nextMany count).current = endOfText ∧
        view (compile (.ofScanner scanner)).state.journal = view (scanner.nextMany count).reader.journal := by
  have sound := sound_ofScanner scanner
  obtain ⟨_, atEnd, _⟩ := sound.compile_finished finished
  obtain ⟨count, feed, same⟩ := (isView.invariant scanner).run (isView.start scanner)
  obtain ⟨spot, journal, last⟩ := (invariant_sound.run sound).ends.eq_last atEnd
  have nothing : (compile (.ofScanner scanner)).state.feed.tokens = [] := congrArg Feed.tokens last
  refine ⟨nothing, count + 1, ?_, ?_, same⟩
  · have length := scanner.feed.length_words
    rw [scanner.words_feed, Scanner.words, List.length_append, List.length_map, List.length_singleton] at length
    have left := scanner.left_nextMany count
    rw [← feed, last, Feed.left] at left
    omega
  · have kind : (scanner.nextMany count).next.1.kind = .endOfInput := by
      rw [← (scanner.nextMany count).feed_begins.1, ← feed]
      exact atEnd
    obtain ⟨_, _, ⟨_, mark, _⟩ | ⟨other, _⟩⟩ := (scanner.nextMany count).next_passes
    · rw [scanner.nextMany_succ]
      exact mark
    · exact absurd kind other

/-- No text is ignored but what stands behind a mark of the end. The text up to the first mark is tokens, blanks
and unknown symbols, so that tokens and unknown symbols are all of it that is no blank. An analysis that goes
through has consumed these tokens and reported these symbols. All lines have been read and the whole text but
its blanks is covered exactly if there is no mark in the source. -/
theorem compile_covers (source : String) :
    let lines := Text.lines source
    let compilation := Compilation.ofSource source
    let last := compilation.outcome.state
    let solid := source.toList.filter isSolid
    ∃ pieces,
      Scans ((lines.flatMap fun line => line.toList.map Text.lower ++ ['\n']).takeWhile (· ≠ endOfText))
        pieces ∧
      (pieces.filter Piece.isSolid).flatMap Piece.chars =
        (solid.takeWhile (· ≠ endOfText)).map Text.lower ∧
      (compilation.summary.aborted = false →
        (Compilation.begin source).feed.tokens.map Token.word = pieces.filterMap Piece.token? ∧
        last.feed.tokens = [] ∧ last.journal.symbols = pieces.filterMap Piece.unknown? ∧
        (last.journal.linesRead = lines ∧
            (pieces.filter Piece.isSolid).flatMap Piece.chars = solid.map Text.lower ↔
          endOfText ∉ source.toList)) := by
  intro lines compilation last solid
  let reader := (Reader.ofLines lines).log (.started lines.length)
  let scanner := Scanner.ofReader reader
  have text : scanner.text = (lines.flatMap fun line => line.toList.map Text.lower ++ ['\n']).takeWhile
      (· ≠ endOfText) :=
    (Scanner.text_ofReader reader).trans (congrArg _ (Reader.text_ofLines lines))
  obtain ⟨pieces, scans, tokens, symbols⟩ := scanner.exists_pieces reader.diagnostics_next
  have covered : (pieces.filter Piece.isSolid).flatMap Piece.chars =
      (solid.takeWhile (· ≠ endOfText)).map Text.lower := by
    have small : lines.flatMap (fun line => line.toList.map Text.lower ++ ['\n']) =
        (lines.flatMap fun line => line.toList ++ ['\n']).map Text.lower := (Reader.text_ofLines lines).symm
    rw [scans.solid, text, small, Text.filter_takeWhile_lower, Text.filter_lines]
  rw [text] at scans
  refine ⟨pieces, scans, covered, fun finished => ?_⟩
  have finished : (compile (.ofScanner scanner)).rejection = none :=
    Option.isNone_iff_eq_none.mp (Option.isSome_eq_false_iff.mp finished)
  obtain ⟨nothing, count, enough, _, seen⟩ := compile_reads_all finished isView_symbols
  obtain ⟨_, count', _, mark, read⟩ := compile_reads_all finished isView_linesRead
  refine ⟨?_, nothing, seen.trans (symbols count enough), ?_⟩
  · rw [← tokens, ← scanner.tokens_feed]
    rfl
  · have whole : endOfText ∈ source.toList ↔ endOfText ∈ solid :=
      ⟨fun member => List.mem_filter.mpr ⟨member, isSolid_endOfText⟩, fun member => (List.mem_filter.mp member).1⟩
    rw [covered, Text.map_takeWhile_eq_iff, ← not_congr whole]
    refine and_iff_right_of_imp fun apart => ?_
    have placed : scanner.Placed lines := Scanner.placed_ofReader rfl rfl (Nat.zero_le _)
    have start : scanner.reader.HasRead lines :=
      (Reader.keeps_hasRead lines).next ((Reader.hasRead_ofLines lines).log rfl)
    have hasRead := (Reader.keeps_hasRead lines).searches count' start
    refine read.trans (((placed.nextMany count').at_end hasRead mark).resolve_right ?_)
    rintro ⟨line, member, inside⟩
    exact apart (Text.mem_of_mem_lines isSolid_endOfText member inside)

/-- What stands behind a mark of the end is in no token and is not reported. -/
theorem compile_ignores_behind_mark :
    let source := "procedure p is begin null; end;\x03@"
    let compilation := Compilation.ofSource source
    compilation.summary = ⟨0, false⟩ ∧ '@' ∈ source.toList ∧ isSolid '@' = true ∧
      compilation.outcome.state.journal.symbols = [] ∧
      ∀ token ∈ (Compilation.begin source).feed.tokens, '@' ∉ token.lexeme.toList := by
  decide +kernel

end Analysis

end AdaFront
