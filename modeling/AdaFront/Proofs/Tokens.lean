import AdaFront.Analysis.Progress

namespace AdaFront

/-- Readers that stand at the same place of the same text, whatever happened before. -/
structure Reader.SamePlace (one other : Reader) : Prop where
  ahead : one.ahead = other.ahead
  below : one.below = other.below
  spot : one.spot = other.spot

theorem Reader.SamePlace.next {one other : Reader} (same : one.SamePlace other) :
    one.next.1 = other.next.1 ∧ one.next.2.SamePlace other.next.2 := by
  obtain ⟨ahead, below, spot, journal⟩ := one
  obtain ⟨ahead', below', spot', journal'⟩ := other
  obtain ⟨rfl, rfl, rfl⟩ := same
  cases ahead with
  | nil =>
    cases below with
    | nil => exact ⟨rfl, rfl, rfl, rfl⟩
    | cons line below =>
      simp only [Reader.next, Reader.startLine, Reader.take]
      split
      · exact ⟨rfl, rfl, rfl, rfl⟩
      · exact ⟨rfl, rfl, rfl, rfl⟩
  | cons c rest => exact ⟨rfl, rfl, rfl, rfl⟩

namespace Scanner

section Next

variable {scanner : Scanner}

theorem next_of_end (mark : scanner.skipBlanks.current = endOfText) :
    scanner.next = scanner.skipBlanks.emit .endOfInput "" := by
  rw [next.eq_def]
  exact if_pos mark

theorem next_of_digit (inside : scanner.skipBlanks.current ≠ endOfText)
    (digit : scanner.skipBlanks.current.isDigit = true) :
    scanner.next = (scanner.skipBlanks.takeRun Char.isDigit).2.emit .integer
      (String.ofList (scanner.skipBlanks.takeRun Char.isDigit).1) := by
  rw [next.eq_def]
  simp only [if_neg inside, if_pos digit]

theorem next_of_letter (inside : scanner.skipBlanks.current ≠ endOfText)
    (digit : ¬scanner.skipBlanks.current.isDigit = true)
    (letter : Text.isLetter scanner.skipBlanks.current = true) :
    scanner.next = (scanner.skipBlanks.takeRun isWordCharacter).2.emit
      (wordKind (String.ofList (scanner.skipBlanks.takeRun isWordCharacter).1))
      (String.ofList (scanner.skipBlanks.takeRun isWordCharacter).1) := by
  rw [next.eq_def]
  simp only [if_neg inside, if_neg digit, if_pos letter]

theorem next_of_operator {found : Token × Scanner}
    (inside : scanner.skipBlanks.current ≠ endOfText)
    (digit : ¬scanner.skipBlanks.current.isDigit = true)
    (letter : ¬Text.isLetter scanner.skipBlanks.current = true)
    (run : scanner.skipBlanks.operator? = some found) : scanner.next = found := by
  rw [next.eq_def]
  simp only [if_neg inside, if_neg digit, if_neg letter, run]

theorem next_of_unknown (inside : scanner.skipBlanks.current ≠ endOfText)
    (digit : ¬scanner.skipBlanks.current.isDigit = true)
    (letter : ¬Text.isLetter scanner.skipBlanks.current = true)
    (run : scanner.skipBlanks.operator? = none) :
    scanner.next = scanner.skipBlanks.skipUnknown.next := by
  rw [next.eq_def]
  simp only [if_neg inside, if_neg digit, if_neg letter, run]

/-- An operator has two characters if these spell one, and one otherwise. -/
theorem operator?_cases {found : Token × Scanner} (run : scanner.operator? = some found) :
    let pair := String.ofList [scanner.current, scanner.advance.current]
    let single := String.singleton scanner.current
    (∃ kind, Kind.ofSpelling? pair = some kind ∧ found = scanner.advance.advance.emit kind pair) ∨
      Kind.ofSpelling? pair = none ∧
        ∃ kind, Kind.ofSpelling? single = some kind ∧ found = scanner.advance.emit kind single := by
  unfold operator? at run
  dsimp only at run
  split at run
  next kind spelled => exact Or.inl ⟨kind, spelled, (Option.some.inj run).symm⟩
  next noPair =>
    obtain ⟨kind, spelled, same⟩ := Option.map_eq_some_iff.mp run
    exact Or.inr ⟨noPair, kind, spelled, same.symm⟩

/-- What holds of a scanner follows from the way its next token is found; only an unknown character
makes the search begin again. -/
@[elab_as_elim]
theorem next_induction {motive : Scanner → Prop} (scanner : Scanner)
    (ended : ∀ scanner : Scanner, scanner.skipBlanks.current = endOfText → motive scanner)
    (number : ∀ scanner : Scanner, scanner.skipBlanks.current ≠ endOfText →
      scanner.skipBlanks.current.isDigit = true → motive scanner)
    (word : ∀ scanner : Scanner, scanner.skipBlanks.current ≠ endOfText →
      ¬scanner.skipBlanks.current.isDigit = true →
      Text.isLetter scanner.skipBlanks.current = true → motive scanner)
    (operator : ∀ (scanner : Scanner) (found : Token × Scanner),
      scanner.skipBlanks.current ≠ endOfText → ¬scanner.skipBlanks.current.isDigit = true →
      ¬Text.isLetter scanner.skipBlanks.current = true →
      scanner.skipBlanks.operator? = some found → motive scanner)
    (unknown : ∀ scanner : Scanner, scanner.skipBlanks.current ≠ endOfText →
      ¬scanner.skipBlanks.current.isDigit = true →
      ¬Text.isLetter scanner.skipBlanks.current = true → scanner.skipBlanks.operator? = none →
      motive scanner.skipBlanks.skipUnknown → motive scanner) : motive scanner := by
  induction scanner using next.induct with
  | case1 scanner start mark => exact ended scanner mark
  | case2 scanner start inside digit => exact number scanner inside digit
  | case3 scanner start inside digit letter => exact word scanner inside digit letter
  | case4 scanner start inside digit letter found run =>
    exact operator scanner found inside digit letter run
  | case5 scanner start inside digit letter run ih => exact unknown scanner inside digit letter run ih

theorem tokens_of_end (last : scanner.next.1.kind = .endOfInput) :
    scanner.tokens = ([], scanner.next.2) := by
  rw [tokens.eq_def, if_pos last]

theorem tokens_of_more (more : scanner.next.1.kind ≠ .endOfInput) :
    scanner.tokens = (scanner.next.1 :: scanner.next.2.tokens.1, scanner.next.2.tokens.2) := by
  rw [tokens.eq_def, if_neg more]

/-- The tokens are taken one after another up to the end of the input. -/
@[elab_as_elim]
theorem tokens_induction {motive : Scanner → Prop} (scanner : Scanner)
    (ended : ∀ scanner : Scanner, scanner.next.1.kind = .endOfInput → motive scanner)
    (more : ∀ scanner : Scanner, scanner.next.1.kind ≠ .endOfInput → motive scanner.next.2 →
      motive scanner) : motive scanner :=
  tokens.induct motive ended more scanner

end Next

/-- Scanners that stand at the same place of the same text. -/
structure SamePlace (one other : Scanner) : Prop where
  current : one.current = other.current
  reader : one.reader.SamePlace other.reader

namespace SamePlace

variable {one other : Scanner}

theorem advance (same : one.SamePlace other) : one.advance.SamePlace other.advance := by
  obtain ⟨char, reader⟩ := same.reader.next
  exact ⟨char, reader⟩

theorem skipBlanks (same : one.SamePlace other) : one.skipBlanks.SamePlace other.skipBlanks := by
  induction one using Scanner.skipBlanks.induct generalizing other with
  | case1 one blank ih =>
    rw [Scanner.skipBlanks.eq_def one, Scanner.skipBlanks.eq_def other, if_pos blank,
      if_pos (same.current ▸ blank)]
    exact ih same.advance
  | case2 one solid =>
    rw [Scanner.skipBlanks.eq_def one, Scanner.skipBlanks.eq_def other, if_neg solid,
      if_neg (same.current ▸ solid)]
    exact same

theorem takeRun (inClass : Char → Bool) (same : one.SamePlace other) :
    (one.takeRun inClass).1 = (other.takeRun inClass).1 ∧
      (one.takeRun inClass).2.SamePlace (other.takeRun inClass).2 := by
  induction one using Scanner.takeRun.induct inClass generalizing other with
  | case1 one inside ih =>
    rw [Scanner.takeRun.eq_def inClass one, Scanner.takeRun.eq_def inClass other, if_pos inside,
      if_pos (same.current ▸ inside)]
    obtain ⟨chars, place⟩ := ih same.advance
    refine ⟨?_, place⟩
    simp only [same.current, chars]
  | case2 one outside =>
    rw [Scanner.takeRun.eq_def inClass one, Scanner.takeRun.eq_def inClass other, if_neg outside,
      if_neg (same.current ▸ outside)]
    exact ⟨rfl, same⟩

theorem emit (kind : Kind) (lexeme : String) (same : one.SamePlace other) :
    (one.emit kind lexeme).1 = (other.emit kind lexeme).1 ∧
      (one.emit kind lexeme).2.SamePlace (other.emit kind lexeme).2 := by
  refine ⟨?_, same.current, same.reader.ahead, same.reader.below, same.reader.spot⟩
  simp only [Scanner.emit, same.reader.spot]

theorem skipUnknown (same : one.SamePlace other) : one.skipUnknown.SamePlace other.skipUnknown :=
  ⟨same.advance.current, same.advance.reader.ahead, same.advance.reader.below,
    same.advance.reader.spot⟩

/-- The same operator is found, or none. -/
theorem operator? (same : one.SamePlace other) :
    (∃ found found', one.operator? = some found ∧ other.operator? = some found' ∧
      found.1 = found'.1 ∧ found.2.SamePlace found'.2) ∨
    (one.operator? = none ∧ other.operator? = none) := by
  have after := same.advance
  simp only [Scanner.operator?, ← same.current, ← after.current]
  split
  · exact Or.inl ⟨_, _, rfl, rfl, after.advance.emit _ _⟩
  · cases Kind.ofSpelling? (String.singleton one.current) with
    | some kind => exact Or.inl ⟨_, _, rfl, rfl, after.emit _ _⟩
    | none => exact Or.inr ⟨rfl, rfl⟩

/-- The next token hangs on the text alone. -/
theorem next (same : one.SamePlace other) :
    one.next.1 = other.next.1 ∧ one.next.2.SamePlace other.next.2 := by
  induction one using next_induction generalizing other with
  | ended one mark =>
    have starts := same.skipBlanks
    rw [next_of_end mark, next_of_end (starts.current ▸ mark)]
    exact starts.emit _ _
  | number one inside digit =>
    have starts := same.skipBlanks
    obtain ⟨chars, place⟩ := starts.takeRun Char.isDigit
    rw [next_of_digit inside digit, next_of_digit (starts.current ▸ inside) (starts.current ▸ digit),
      chars]
    exact place.emit _ _
  | word one inside digit letter =>
    have starts := same.skipBlanks
    obtain ⟨chars, place⟩ := starts.takeRun isWordCharacter
    rw [next_of_letter inside digit letter, next_of_letter (starts.current ▸ inside)
      (starts.current ▸ digit) (starts.current ▸ letter), chars]
    exact place.emit _ _
  | operator one found inside digit letter run =>
    have starts := same.skipBlanks
    rcases starts.operator? with ⟨found', other', run', otherRun, place⟩ | ⟨nothing, _⟩
    · cases Option.some.inj (run.symm.trans run')
      rw [next_of_operator inside digit letter run, next_of_operator (starts.current ▸ inside)
        (starts.current ▸ digit) (starts.current ▸ letter) otherRun]
      exact place
    · cases run.symm.trans nothing
  | unknown one inside digit letter run ih =>
    have starts := same.skipBlanks
    rcases starts.operator? with ⟨found', other', run', otherRun, place⟩ | ⟨_, nothing⟩
    · cases run.symm.trans run'
    · rw [next_of_unknown inside digit letter run, next_of_unknown (starts.current ▸ inside)
        (starts.current ▸ digit) (starts.current ▸ letter) nothing]
      exact ih starts.skipUnknown

theorem tokens (same : one.SamePlace other) : one.tokens.1 = other.tokens.1 := by
  induction one using tokens_induction generalizing other with
  | ended one last =>
    have last' : other.next.1.kind = .endOfInput := same.next.1 ▸ last
    rw [tokens_of_end last, tokens_of_end last']
  | more one more ih =>
    have more' : other.next.1.kind ≠ .endOfInput := same.next.1 ▸ more
    rw [tokens_of_more more, tokens_of_more more', same.next.1, ih same.next.2]

end SamePlace

end Scanner

namespace Scanner

/-- What is kept when a character is read, a token is found or an unknown symbol is reported. -/
structure Keeps (Holds : Reader → Prop) : Prop where
  next {reader : Reader} : Holds reader → Holds reader.next.2
  scanned {reader : Reader} {token : Token} : Holds reader → Holds (reader.log (.scanned token))
  unknown {reader : Reader} {symbol : Char} : Holds reader → Holds (reader.report (.unknownSymbol symbol))

namespace Keeps

variable {Holds : Reader → Prop} {scanner : Scanner}

theorem advance (keeps : Keeps Holds) (holds : Holds scanner.reader) : Holds scanner.advance.reader :=
  keeps.next holds

theorem emit (keeps : Keeps Holds) (kind : Kind) (lexeme : String) (holds : Holds scanner.reader) :
    Holds (scanner.emit kind lexeme).2.reader :=
  keeps.scanned holds

theorem skipBlanks (keeps : Keeps Holds) (holds : Holds scanner.reader) :
    Holds scanner.skipBlanks.reader := by
  induction scanner using Scanner.skipBlanks.induct with
  | case1 scanner blank ih =>
    rw [Scanner.skipBlanks.eq_def, if_pos blank]
    exact ih (keeps.advance holds)
  | case2 scanner solid =>
    rw [Scanner.skipBlanks.eq_def, if_neg solid]
    exact holds

theorem takeRun (keeps : Keeps Holds) (inClass : Char → Bool) (holds : Holds scanner.reader) :
    Holds (scanner.takeRun inClass).2.reader := by
  induction scanner using Scanner.takeRun.induct inClass with
  | case1 scanner inside ih =>
    rw [Scanner.takeRun.eq_def, if_pos inside]
    exact ih (keeps.advance holds)
  | case2 scanner outside =>
    rw [Scanner.takeRun.eq_def, if_neg outside]
    exact holds

theorem skipUnknown (keeps : Keeps Holds) (holds : Holds scanner.reader) :
    Holds scanner.skipUnknown.reader :=
  keeps.unknown (keeps.advance holds)

/-- It is kept until a token is complete. -/
theorem search_emits (keeps : Keeps Holds) (holds : Holds scanner.reader) :
    ∃ (before : Scanner) (kind : Kind) (lexeme : String), scanner.next = before.emit kind lexeme ∧
      Holds before.reader := by
  induction scanner using next_induction with
  | ended scanner mark => exact ⟨_, _, _, next_of_end mark, keeps.skipBlanks holds⟩
  | number scanner inside digit =>
    exact ⟨_, _, _, next_of_digit inside digit, keeps.takeRun _ (keeps.skipBlanks holds)⟩
  | word scanner inside digit letter =>
    exact ⟨_, _, _, next_of_letter inside digit letter, keeps.takeRun _ (keeps.skipBlanks holds)⟩
  | operator scanner found inside digit letter run =>
    have after := keeps.advance (keeps.skipBlanks holds)
    rw [next_of_operator inside digit letter run]
    rcases operator?_cases run with ⟨kind, _, same⟩ | ⟨_, kind, _, same⟩
    · exact ⟨_, _, _, same, keeps.advance after⟩
    · exact ⟨_, _, _, same, after⟩
  | unknown scanner inside digit letter run ih =>
    rw [next_of_unknown inside digit letter run]
    exact ih (keeps.skipUnknown (keeps.skipBlanks holds))

/-- The search for a token keeps it too. -/
theorem search (keeps : Keeps Holds) (holds : Holds scanner.reader) : Holds scanner.next.2.reader := by
  obtain ⟨before, kind, lexeme, same, kept⟩ := keeps.search_emits holds
  rw [same]
  exact keeps.emit kind lexeme kept

end Keeps

end Scanner

/-- What happens while a token is looked for. -/
inductive Event.OfScanning : Event → Prop
  | line (number : Nat) (text : String) : OfScanning (.lineRead number text)
  | token (token : Token) : OfScanning (.scanned token)
  | unknown (spot : Spot) (symbol : Char) : OfScanning (.reported spot (.unknownSymbol symbol))

/-- What is kept by reading on in a line and holds behind the start of a line is kept by the next character. -/
theorem Reader.next_keeps {Holds : Reader → Prop} {reader : Reader} (holds : Holds reader)
    (take : ∀ {reader : Reader}, Holds reader → Holds reader.take.2)
    (startLine : ∀ line below, reader.below = line :: below → Holds (reader.startLine line below)) :
    Holds reader.next.2 := by
  unfold next
  split
  next line below _ next => exact take (startLine line below next)
  next => exact take holds

theorem Reader.take_keeps (reader : Reader) :
    reader.take.2.journal = reader.journal ∧ reader.take.2.spot.number = reader.spot.number := by
  unfold take
  split
  · exact ⟨rfl, rfl⟩
  · exact ⟨rfl, rfl⟩

/-- Reading a character begins a line, or nothing happens but that reading goes on. -/
theorem Reader.next_cases (reader : Reader) :
    (∃ line rest, reader.below = line :: rest ∧
        reader.next.2.journal = .lineRead (reader.spot.number + 1) line :: reader.journal ∧
        reader.next.2.spot.number = reader.spot.number + 1) ∨
      reader.next.2.journal = reader.journal ∧ reader.next.2.spot.number = reader.spot.number := by
  unfold next
  split
  next line rest _ below =>
    obtain ⟨journal, number⟩ := (reader.startLine line rest).take_keeps
    exact Or.inl ⟨line, rest, below, journal, number⟩
  next => exact Or.inr reader.take_keeps

/-- Since a journal nothing has happened but a search for tokens. -/
def Reader.Searches (start : Journal) (reader : Reader) : Prop :=
  ∃ newer, reader.journal = newer ++ start ∧ ∀ event ∈ newer, event.OfScanning

theorem Reader.Searches.start (reader : Reader) : reader.Searches reader.journal :=
  ⟨[], rfl, List.forall_mem_nil _⟩

theorem Reader.Searches.more {start : Journal} {reader after : Reader} {event : Event}
    (searches : reader.Searches start) (journal : after.journal = event :: reader.journal)
    (scanning : event.OfScanning) : after.Searches start := by
  obtain ⟨newer, same, each⟩ := searches
  refine ⟨event :: newer, ?_, List.forall_mem_cons.mpr ⟨scanning, each⟩⟩
  rw [journal, same, List.cons_append]

theorem Reader.keeps_searches (start : Journal) : Scanner.Keeps (Reader.Searches start) where
  scanned searches := searches.more rfl (.token _)
  unknown searches := searches.more rfl (.unknown _ _)
  next {reader} searches := by
    rcases reader.next_cases with ⟨line, rest, _, journal, _⟩ | ⟨journal, _⟩
    · exact searches.more journal (.line _ _)
    · rw [Reader.Searches, journal]
      exact searches

/-- The token that is found comes last in the journal, and what has happened stays in it. -/
theorem Scanner.journal_next_cons (scanner : Scanner) :
    ∃ newer, scanner.next.2.reader.journal = .scanned scanner.next.1 :: (newer ++ scanner.reader.journal) := by
  obtain ⟨before, kind, lexeme, same, newer, journal, _⟩ :=
    (Reader.keeps_searches scanner.reader.journal).search_emits (Reader.Searches.start scanner.reader)
  refine ⟨newer, ?_⟩
  rw [same, ← journal]
  rfl

namespace Feed

/-- The tokens before the end of the input. -/
def tokens : Feed → List Token
  | last _ _ => []
  | more head rest => head.token :: rest.tokens

/-- The kinds of all tokens, the end of the input included. -/
def kinds (feed : Feed) : List Kind :=
  feed.tokens.map Token.kind ++ [.endOfInput]

theorem kinds_advance (feed : Feed) (inner : feed.token.kind ≠ .endOfInput) :
    feed.kinds = feed.token.kind :: feed.advance.kinds := by
  cases feed with
  | last => exact absurd rfl inner
  | more => rfl

/-- Nothing happens between the tokens but a search for them. -/
def Searched : Feed → Prop
  | last _ journal => ∀ event ∈ journal, event.OfScanning
  | more head rest => (∀ event ∈ head.journal, event.OfScanning) ∧ rest.Searched

theorem Searched.journal {feed : Feed} (searched : feed.Searched) :
    ∀ event ∈ feed.journal, event.OfScanning := by
  cases feed with
  | last => exact searched
  | more => exact searched.1

theorem Searched.advance {feed : Feed} (searched : feed.Searched) : feed.advance.Searched := by
  cases feed with
  | last => exact List.forall_mem_singleton.mpr (.token _)
  | more => exact searched.2

theorem kinds_begin (feed : Feed) : ∃ rest, feed.kinds = feed.token.kind :: rest := by
  cases feed with
  | last => exact ⟨[], rfl⟩
  | more _ rest => exact ⟨rest.kinds, rfl⟩

end Feed

namespace Scanner

/-- The scanner with an empty journal, from which a feed looks for its next token. -/
def fresh (scanner : Scanner) : Scanner :=
  { scanner with reader := { scanner.reader with journal := [] } }

theorem fresh_samePlace (scanner : Scanner) : scanner.fresh.SamePlace scanner :=
  ⟨rfl, rfl, rfl, rfl⟩

theorem feed_of_end {scanner : Scanner} (last : scanner.fresh.next.1.kind = .endOfInput) :
    scanner.feed = .last scanner.fresh.next.2.reader.spot scanner.fresh.next.2.reader.journal := by
  rw [feed.eq_def]
  exact if_pos last

theorem feed_of_more {scanner : Scanner} (more : scanner.fresh.next.1.kind ≠ .endOfInput) :
    scanner.feed = .more ⟨scanner.fresh.next.1, scanner.fresh.next.2.reader.spot,
      scanner.fresh.next.2.reader.journal⟩ scanner.fresh.next.2.feed := by
  rw [feed.eq_def]
  exact if_neg more

@[elab_as_elim]
theorem feed_induction {motive : Scanner → Prop} (scanner : Scanner)
    (ended : ∀ scanner : Scanner, scanner.fresh.next.1.kind = .endOfInput → motive scanner)
    (more : ∀ scanner : Scanner, scanner.fresh.next.1.kind ≠ .endOfInput →
      motive scanner.fresh.next.2 → motive scanner) : motive scanner :=
  feed.induct motive ended more scanner

/-- What a search keeps holds wherever a token of the feed is found. -/
theorem Keeps.feed {Holds : Reader → Prop} {motive : Feed → Prop} {scanner : Scanner} (keeps : Keeps Holds)
    (fresh : ∀ {scanner : Scanner}, Holds scanner.reader → Holds scanner.fresh.reader)
    (ended : ∀ reader, Holds reader → motive (.last reader.spot reader.journal))
    (more : ∀ token reader rest, Holds reader → motive rest →
      motive (.more ⟨token, reader.spot, reader.journal⟩ rest))
    (holds : Holds scanner.reader) : motive scanner.feed := by
  induction scanner using feed_induction with
  | ended scanner last =>
    rw [feed_of_end last]
    exact ended _ (keeps.search (fresh holds))
  | more scanner inner ih =>
    have found := keeps.search (fresh holds)
    rw [feed_of_more inner]
    exact more _ _ _ found (ih found)

/-- The feed of a scanner holds the tokens that the scanner finds. -/
theorem tokens_feed (scanner : Scanner) : scanner.feed.tokens = scanner.tokens.1 := by
  induction scanner using feed_induction with
  | ended scanner last =>
    have same := scanner.fresh_samePlace.next.1
    rw [feed_of_end last, tokens_of_end (same ▸ last), Feed.tokens]
  | more scanner more ih =>
    obtain ⟨same, place⟩ := scanner.fresh_samePlace.next
    rw [feed_of_more more, tokens_of_more (same ▸ more), ← same, ← place.tokens, Feed.tokens, ih]

theorem feed_searched (scanner : Scanner) : scanner.feed.Searched := by
  have search (scanner : Scanner) : ∀ event ∈ scanner.fresh.next.2.reader.journal, event.OfScanning := by
    obtain ⟨newer, journal, searched⟩ :=
      (Reader.keeps_searches []).search (Reader.Searches.start scanner.fresh.reader)
    rw [journal, List.append_nil]
    exact searched
  induction scanner using feed_induction with
  | ended scanner last =>
    rw [feed_of_end last]
    exact search scanner
  | more scanner more ih =>
    rw [feed_of_more more]
    exact ⟨search scanner, ih⟩

/-- The kinds of all tokens, the end of the input included. -/
def kinds (scanner : Scanner) : List Kind :=
  scanner.tokens.1.map Token.kind ++ [.endOfInput]

theorem kinds_feed (scanner : Scanner) : scanner.feed.kinds = scanner.kinds := by
  rw [Feed.kinds, tokens_feed, kinds]

theorem kind_of_mem_tokens {scanner : Scanner} {token : Token} (member : token ∈ scanner.tokens.1) :
    token.kind ≠ .endOfInput := by
  induction scanner using tokens_induction with
  | ended scanner last =>
    rw [tokens_of_end last] at member
    cases member
  | more scanner more ih =>
    rw [tokens_of_more more] at member
    rcases List.mem_cons.mp member with rfl | later
    · exact more
    · exact ih later

end Scanner

end AdaFront
