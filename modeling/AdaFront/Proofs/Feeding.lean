import AdaFront.Proofs.Actions

namespace AdaFront

open AdaFront.Tree (Lexeme)

/-- A token without its place. -/
def Token.word (token : Token) : Lexeme := (token.kind, token.lexeme)

namespace Feed

/-- All tokens without their places, the end of the input included. -/
def words (feed : Feed) : List Lexeme :=
  feed.tokens.map Token.word ++ [(.endOfInput, "")]

theorem words_begin (feed : Feed) : ∃ rest, feed.words = feed.token.word :: rest := by
  cases feed with
  | last => exact ⟨[], rfl⟩
  | more _ rest => exact ⟨rest.words, rfl⟩

theorem length_words (feed : Feed) : feed.words.length = feed.left + 1 := by
  induction feed with
  | last => rfl
  | more _ rest ih => exact congrArg (· + 1) ih

theorem words_advance {feed : Feed} {first second : Lexeme} {rest : List Lexeme}
    (words : feed.words = first :: second :: rest) : feed.advance.words = second :: rest := by
  cases feed with
  | last => cases words
  | more => exact (List.cons.inj words).2

/-- Behind the first token there is one token less. -/
theorem left_advance_eq (feed : Feed) : feed.advance.left = feed.left - 1 := by
  cases feed <;> rfl

theorem words_advance_suffix (feed : Feed) : feed.advance.words <:+ feed.words := by
  cases feed with
  | last => exact List.suffix_rfl
  | more => exact List.suffix_cons _ _

end Feed

namespace Scanner

/-- The scanner with older events below those of its journal. -/
def onTop (below : Journal) (scanner : Scanner) : Scanner :=
  { scanner with reader := { scanner.reader with journal := scanner.reader.journal ++ below } }

section OnTop

variable (below : Journal) (scanner : Scanner)

theorem advance_onTop : (scanner.onTop below).advance = scanner.advance.onTop below := by
  obtain ⟨current, ahead, lines, spot, journal⟩ := scanner
  cases ahead with
  | cons c rest => rfl
  | nil =>
    cases lines with
    | nil => rfl
    | cons line lines =>
      simp only [onTop, advance, ofReader, Reader.next, Reader.startLine, Reader.take]
      split <;> rfl

theorem skipBlanks_onTop : (scanner.onTop below).skipBlanks = scanner.skipBlanks.onTop below := by
  induction scanner using Scanner.skipBlanks.induct with
  | case1 scanner blank ih =>
    rw [skipBlanks.eq_def scanner, if_pos blank, ← ih, ← advance_onTop, skipBlanks.eq_def, if_pos]
    exact blank
  | case2 scanner solid =>
    rw [skipBlanks.eq_def scanner, if_neg solid, skipBlanks.eq_def, if_neg]
    exact solid

theorem takeRun_onTop (inClass : Char → Bool) :
    (scanner.onTop below).takeRun inClass =
      ((scanner.takeRun inClass).1, (scanner.takeRun inClass).2.onTop below) := by
  induction scanner using Scanner.takeRun.induct inClass with
  | case1 scanner inside ih =>
    rw [takeRun.eq_def inClass scanner, if_pos inside, takeRun.eq_def, if_pos]
    · rw [advance_onTop, ih]
      rfl
    · exact inside
  | case2 scanner outside =>
    rw [takeRun.eq_def inClass scanner, if_neg outside, takeRun.eq_def, if_neg]
    exact outside

theorem operator?_onTop :
    (scanner.onTop below).operator? =
      scanner.operator?.map fun found => (found.1, found.2.onTop below) := by
  unfold operator?
  simp only [advance_onTop]
  dsimp only [onTop]
  split
  · rfl
  · cases Kind.ofSpelling? (String.singleton scanner.current) <;> rfl

theorem skipUnknown_onTop : (scanner.onTop below).skipUnknown = scanner.skipUnknown.onTop below := by
  unfold skipUnknown
  rw [advance_onTop]
  rfl

/-- What has happened before makes no difference to the search for a token. -/
theorem next_onTop :
    (scanner.onTop below).next = (scanner.next.1, scanner.next.2.onTop below) := by
  induction scanner using next_induction with
  | ended scanner mark =>
    rw [next_of_end mark, next_of_end, skipBlanks_onTop]
    · rfl
    · rw [skipBlanks_onTop]
      exact mark
  | number scanner inside digit =>
    rw [next_of_digit inside digit, next_of_digit, skipBlanks_onTop, takeRun_onTop]
    · rfl
    all_goals rw [skipBlanks_onTop]
    · exact inside
    · exact digit
  | word scanner inside digit letter =>
    rw [next_of_letter inside digit letter, next_of_letter, skipBlanks_onTop, takeRun_onTop]
    · rfl
    all_goals rw [skipBlanks_onTop]
    · exact inside
    · exact digit
    · exact letter
  | operator scanner found inside digit letter run =>
    rw [next_of_operator inside digit letter run]
    apply next_of_operator
    all_goals rw [skipBlanks_onTop]
    · exact inside
    · exact digit
    · exact letter
    · rw [operator?_onTop, run, Option.map_some]
  | unknown scanner inside digit letter run ih =>
    rw [next_of_unknown inside digit letter run, ← ih, next_of_unknown, skipBlanks_onTop,
      skipUnknown_onTop]
    all_goals rw [skipBlanks_onTop]
    · exact inside
    · exact digit
    · exact letter
    · rw [operator?_onTop, run, Option.map_none]

end OnTop

variable {scanner : Scanner}

theorem journal_next (scanner : Scanner) : scanner.next.2.reader.journal =
    scanner.fresh.next.2.reader.journal ++ scanner.reader.journal :=
  congrArg (·.2.reader.journal) (next_onTop scanner.reader.journal scanner.fresh)

theorem SamePlace.feed {one other : Scanner} (same : one.SamePlace other) : one.feed = other.feed := by
  have fresh : one.fresh = other.fresh := by
    obtain ⟨current, ahead, lines, spot, journal⟩ := one
    obtain ⟨current', ahead', lines', spot', journal'⟩ := other
    obtain ⟨rfl, rfl, rfl, rfl⟩ := same
    rfl
  rw [feed.eq_def one, feed.eq_def other]
  exact congrArg (fun fresh : Scanner => if fresh.next.1.kind = .endOfInput then
    Feed.last fresh.next.2.reader.spot fresh.next.2.reader.journal
    else .more ⟨fresh.next.1, fresh.next.2.reader.spot, fresh.next.2.reader.journal⟩ fresh.next.2.feed) fresh

theorem journal_feed (scanner : Scanner) :
    scanner.feed.journal = scanner.fresh.next.2.reader.journal := by
  by_cases last : scanner.fresh.next.1.kind = .endOfInput
  · rw [feed_of_end last]
    rfl
  · rw [feed_of_more last]
    rfl

/-- A feed begins with the token that the scanner finds next, where the scanner then stands. -/
theorem feed_begins (scanner : Scanner) :
    scanner.feed.token = scanner.next.1 ∧ scanner.feed.spot = scanner.next.2.reader.spot := by
  obtain ⟨token, place⟩ := scanner.fresh_samePlace.next
  rw [← token, ← place.reader.spot]
  by_cases last : scanner.fresh.next.1.kind = .endOfInput
  · obtain ⟨_, _, ⟨same, _⟩ | ⟨other, _⟩⟩ := scanner.fresh.next_passes
    · rw [feed_of_end last, same]
      exact ⟨rfl, rfl⟩
    · exact absurd last other
  · rw [feed_of_more last]
    exact ⟨rfl, rfl⟩

/-- The feed behind its first token is the feed of the scanner behind it. -/
theorem feed_next (scanner : Scanner) : scanner.next.2.feed = scanner.feed.advance := by
  have same := scanner.fresh_samePlace.next.2.feed
  by_cases last : scanner.fresh.next.1.kind = .endOfInput
  · obtain ⟨_, _, ⟨_, mark, _⟩ | ⟨other, _⟩⟩ := scanner.fresh.next_passes
    · -- At the end the same token is found where the scanner stands.
      rw [feed_of_end last, ← same]
      generalize scanner.fresh.next.2 = behind at mark
      have stays : behind.fresh.skipBlanks = behind.fresh := skipBlanks_of_end mark
      have again : behind.fresh.next = behind.fresh.emit .endOfInput "" := by
        rw [next_of_end (by rw [stays]; exact mark), stays]
      rw [feed_of_end (by rw [again]; rfl), again]
      rfl
    · exact absurd last other
  · rw [feed_of_more last, ← same]
    rfl

theorem nextMany_succ (scanner : Scanner) (count : Nat) :
    scanner.nextMany (count + 1) = (scanner.nextMany count).next.2 := by
  induction count generalizing scanner with
  | zero => rfl
  | succ count ih => exact ih scanner.next.2

/-- All tokens without their places, the end of the input included. -/
def words (scanner : Scanner) : List Lexeme :=
  scanner.tokens.1.map Token.word ++ [(.endOfInput, "")]

theorem words_feed (scanner : Scanner) : scanner.feed.words = scanner.words := by
  rw [Feed.words, tokens_feed, words]

theorem left_nextMany (scanner : Scanner) (count : Nat) :
    (scanner.nextMany count).feed.left = scanner.feed.left - count := by
  induction count with
  | zero => rfl
  | succ count ih =>
    rw [nextMany_succ, feed_next, Feed.left_advance_eq, ih]
    omega

theorem words_nextMany_suffix (scanner : Scanner) (count : Nat) :
    (scanner.nextMany count).feed.words <:+ scanner.words := by
  induction count with
  | zero => exact scanner.words_feed ▸ List.suffix_rfl
  | succ count ih =>
    rw [nextMany_succ, feed_next]
    exact (Feed.words_advance_suffix _).trans ih

end Scanner

namespace Journal

theorem diagnostics_append (newer older : Journal) :
    diagnostics (newer ++ older) = diagnostics older ++ diagnostics newer := by
  rw [diagnostics, List.reverse_append, List.filterMap_append, diagnostics, diagnostics]

/-- The number of unknown symbols that have been reported. -/
def unknowns (journal : Journal) : Nat :=
  journal.diagnostics.countP fun diagnostic => !diagnostic.ofProgram

theorem unknowns_append (newer older : Journal) :
    unknowns (newer ++ older) = unknowns newer + unknowns older := by
  rw [unknowns, diagnostics_append, List.countP_append, Nat.add_comm, unknowns, unknowns]

/-- An error is one of the program or an unknown symbol. -/
theorem errors_eq (journal : Journal) :
    journal.errors =
      (journal.diagnostics.filter Diagnostic.ofProgram).length + journal.unknowns := by
  rw [errors_eq_length, unknowns, ← List.countP_eq_length_filter,
    List.length_eq_countP_add_countP Diagnostic.ofProgram]
  simp only [Bool.not_eq_true, Bool.decide_eq_false]

end Journal

/-- The number of unknown symbols that are reported until so many tokens have been found. -/
def Scanner.unknowns (scanner : Scanner) (count : Nat) : Nat :=
  (scanner.nextMany count).reader.journal.unknowns

namespace Analysis

def State.words (state : State) : List Lexeme := state.feed.words

/-- A view of journals that is put together from those of their parts and does not see what is no search for
tokens. -/
structure IsView {α : Type} (view : Journal → α) (join : α → α → α) : Prop where
  append (newer older : Journal) : view (newer ++ older) = join (view newer) (view older)
  quiet {event : Event} (journal : Journal) : ¬event.OfScanning → view (event :: journal) = view journal

/-- A state whose tokens are those of a scanner, some tokens further on, with the same view of its journal. -/
def State.Tracks {α : Type} (view : Journal → α) (scanner : Scanner) (state : State) : Prop :=
  ∃ count, state.feed = (scanner.nextMany count).feed ∧
    view state.journal = view (scanner.nextMany (count + 1)).reader.journal

namespace IsView

variable {α : Type} {view : Journal → α} {join : α → α → α} {scanner : Scanner} {state : State}

theorem start (isView : IsView view join) (scanner : Scanner) :
    (State.ofScanner scanner).Tracks view scanner := by
  refine ⟨0, rfl, ?_⟩
  have journal : (State.ofScanner scanner).journal =
      scanner.feed.journal ++ .scopeOpened Table.predefined.level :: scanner.reader.journal := rfl
  have found : scanner.nextMany (0 + 1) = scanner.next.2 := rfl
  have opened : view (.scopeOpened Table.predefined.level :: scanner.reader.journal) =
      view scanner.reader.journal := isView.quiet _ nofun
  rw [journal, found, scanner.journal_next, scanner.journal_feed, isView.append, isView.append, opened]

theorem advance (isView : IsView view join) (tracks : state.Tracks view scanner) :
    state.advance.Tracks view scanner := by
  obtain ⟨count, feed, same⟩ := tracks
  have next : state.feed.advance = (scanner.nextMany (count + 1)).feed := by
    rw [scanner.nextMany_succ, Scanner.feed_next, feed]
  refine ⟨count + 1, next, ?_⟩
  have journal : state.advance.journal = state.feed.advance.journal ++ state.journal := rfl
  rw [journal, scanner.nextMany_succ (count + 1), Scanner.journal_next, ← Scanner.journal_feed, ← next,
    isView.append, isView.append, same]

theorem log {event : Event} (isView : IsView view join) (other : ¬event.OfScanning)
    (tracks : state.Tracks view scanner) : (state.log event).Tracks view scanner := by
  obtain ⟨count, feed, same⟩ := tracks
  exact ⟨count, feed, (isView.quiet state.journal other).trans same⟩

theorem invariant (isView : IsView view join) (scanner : Scanner) :
    Invariant (State.Tracks view scanner) where
  act {state _} action tracks := by
    cases action with
    | advance => exact isView.advance tracks
    | report program =>
      refine isView.log ?_ tracks
      rintro ⟨⟩
      cases program
    | print | overflow => exact isView.log nofun tracks
    | _ => exact tracks
  openScope tracks := isView.log nofun tracks
  closeScope {state} tracks := by
    unfold State.closeScope
    split
    · exact tracks
    · exact isView.log nofun tracks

end IsView

theorem isView_unknowns : IsView Journal.unknowns (· + ·) where
  append := Journal.unknowns_append
  quiet {event} journal other := by
    have alone : Journal.unknowns [event] = 0 := by
      cases event with
      | reported spot diagnostic =>
        cases diagnostic with
        | unknownSymbol symbol => exact absurd (.unknown spot symbol) other
        | _ => rfl
      | _ => rfl
    rw [← List.singleton_append, Journal.unknowns_append, alone, Nat.zero_add]

/-- A state whose tokens and unknown symbols are those of a scanner, some tokens further on. -/
def State.Follows (scanner : Scanner) (state : State) : Prop :=
  ∃ count, state.feed = (scanner.nextMany count).feed ∧
    state.journal.unknowns = scanner.unknowns (count + 1)

namespace State.Follows

variable {scanner : Scanner} {state : State}

theorem start (scanner : Scanner) : (State.ofScanner scanner).Follows scanner :=
  isView_unknowns.start scanner

theorem invariant (scanner : Scanner) : Invariant (State.Follows scanner) :=
  isView_unknowns.invariant scanner

theorem words (follows : state.Follows scanner) : ∃ read, scanner.words = read ++ state.words := by
  obtain ⟨count, feed, _⟩ := follows
  obtain ⟨read, whole⟩ := scanner.words_nextMany_suffix count
  exact ⟨read, whole.symm.trans (congrArg (read ++ ·.words) feed.symm)⟩

/-- The unknown symbols that have been reported are those up to the current token. -/
theorem unknowns {read later : List Lexeme} {stop : Lexeme} (follows : state.Follows scanner)
    (whole : scanner.words = read ++ stop :: later) (words : state.words = stop :: later) :
    state.journal.unknowns = scanner.unknowns (read.length + 1) := by
  obtain ⟨count, feed, unknowns⟩ := follows
  rw [unknowns]
  have left : scanner.feed.left = read.length + later.length := by
    have length := scanner.feed.length_words
    rw [scanner.words_feed, whole, List.length_append, List.length_cons] at length
    omega
  have rest : later.length = scanner.feed.left - count := by
    have length := state.feed.length_words
    rw [show state.feed.words = stop :: later from words, List.length_cons, feed,
      scanner.left_nextMany] at length
    omega
  cases later with
  | cons =>
    have same : count = read.length := by
      rw [List.length_cons] at left rest
      omega
    rw [same]
  | nil =>
    -- At the end of the input nothing more is reported.
    have tokens : scanner.tokens.1.length = read.length := by
      have length := congrArg List.length whole
      simpa [Scanner.words] using length
    have enough : read.length ≤ count := by
      rw [List.length_nil] at left rest
      omega
    have last (many : Nat) (less : read.length < many) :
        scanner.unknowns many = scanner.tokens.2.reader.journal.unknowns := by
      have same := (scanner.nextMany_next many).2 (tokens ▸ less)
      exact congrArg (List.countP fun diagnostic => !diagnostic.ofProgram) same
    rw [last _ (Nat.lt_succ_of_le enough), last _ (Nat.lt_succ_self _)]

end State.Follows

end Analysis

end AdaFront
