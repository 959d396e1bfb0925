import AdaFront.Source.Reader
import AdaFront.Text.Numeral

namespace AdaFront

/-- A scanner stands at a character that has been read and belongs to no token yet. -/
structure Scanner where
  current : Char
  reader : Reader
deriving DecidableEq, Repr, Inhabited

/-- The characters of a word. -/
def isWordCharacter (c : Char) : Bool :=
  c == '_' || Text.isLetter c || Text.isNumeral c

/-- A word is an identifier unless it spells a keyword. -/
def wordKind (word : String) : Kind :=
  match Kind.ofSpelling? word with
  | some kind => if kind.isKeyword then kind else .identifier
  | none => .identifier

namespace Scanner

def ofReader (reader : Reader) : Scanner :=
  let (c, after) := reader.next
  ⟨c, after⟩

def advance (scanner : Scanner) : Scanner :=
  ofReader scanner.reader

/-- The number of characters that belong to no token yet. A mark of the end is never passed, so it
does not count. -/
def left (scanner : Scanner) : Nat :=
  scanner.reader.unread + if scanner.current = endOfText then 0 else 1

theorem left_ofReader (reader : Reader) : (ofReader reader).left ≤ reader.unread := by
  have less := Reader.unread_next reader
  have parts : (ofReader reader).left =
      reader.next.2.unread + if reader.next.1 = endOfText then 0 else 1 := rfl
  rw [parts]
  by_cases nothing : reader.unread = 0
  · have mark := Reader.next_of_unread_eq_zero reader nothing
    rw [if_pos mark]
    omega
  · split <;> omega

theorem left_advance_le (scanner : Scanner) : scanner.advance.left ≤ scanner.left :=
  Nat.le_trans (left_ofReader scanner.reader) (Nat.le_add_right _ _)

theorem left_advance (scanner : Scanner) (inside : scanner.current ≠ endOfText) :
    scanner.advance.left < scanner.left := by
  have bound : scanner.advance.left ≤ scanner.reader.unread := left_ofReader scanner.reader
  have whole : scanner.left = scanner.reader.unread + 1 := by simp [left, inside]
  omega

theorem isBlank_endOfText : Text.isBlank endOfText = false := by decide

/-- Passes over blanks. -/
def skipBlanks (scanner : Scanner) : Scanner :=
  if Text.isBlank scanner.current then scanner.advance.skipBlanks else scanner
termination_by scanner.left
decreasing_by
  refine left_advance scanner fun mark => ?_
  simp_all [isBlank_endOfText]

theorem left_skipBlanks (scanner : Scanner) : scanner.skipBlanks.left ≤ scanner.left := by
  fun_induction skipBlanks scanner with
  | case1 scanner _ ih => exact Nat.le_trans ih (left_advance_le scanner)
  | case2 => exact Nat.le_refl _

/-- The longest run of characters of one class from here on. -/
def takeRun (inClass : Char → Bool) (scanner : Scanner) : List Char × Scanner :=
  if scanner.current ≠ endOfText ∧ inClass scanner.current then
    let rest := takeRun inClass scanner.advance
    (scanner.current :: rest.1, rest.2)
  else ([], scanner)
termination_by scanner.left
decreasing_by exact left_advance scanner (And.left ‹_›)

theorem left_takeRun_le (inClass : Char → Bool) (scanner : Scanner) :
    (takeRun inClass scanner).2.left ≤ scanner.left := by
  fun_induction takeRun inClass scanner with
  | case1 scanner _ _ ih => exact Nat.le_trans ih (left_advance_le scanner)
  | case2 => exact Nat.le_refl _

theorem left_takeRun (inClass : Char → Bool) (scanner : Scanner)
    (inside : scanner.current ≠ endOfText) (first : inClass scanner.current = true) :
    (takeRun inClass scanner).2.left < scanner.left := by
  rw [takeRun, if_pos ⟨inside, first⟩]
  exact Nat.lt_of_le_of_lt (left_takeRun_le inClass _) (left_advance scanner inside)

def log (scanner : Scanner) (event : Event) : Scanner :=
  { scanner with reader := scanner.reader.log event }

/-- Completes a token. Its position is the reader's, which is past the current character. -/
def emit (scanner : Scanner) (kind : Kind) (lexeme : String) : Token × Scanner :=
  let token := ⟨kind, lexeme, scanner.reader.spot.number, scanner.reader.spot.column⟩
  (token, scanner.log (.scanned token))

/-- The operator or delimiter that starts here. Two characters that spell one go together. -/
def operator? (scanner : Scanner) : Option (Token × Scanner) :=
  let after := scanner.advance
  let pair := String.ofList [scanner.current, after.current]
  match Kind.ofSpelling? pair with
  | some kind => some (after.advance.emit kind pair)
  | none =>
    let single := String.singleton scanner.current
    (Kind.ofSpelling? single).map fun kind => after.emit kind single

/-- Reports the current character and passes over it. -/
def skipUnknown (scanner : Scanner) : Scanner :=
  let after := scanner.advance
  { after with reader := after.reader.report (.unknownSymbol scanner.current) }

@[simp] theorem left_skipUnknown (scanner : Scanner) :
    scanner.skipUnknown.left = scanner.advance.left := rfl

/-- The next token. A character that starts none is reported and passed over; at the end of the text
the scanner stays where it is. -/
def next (scanner : Scanner) : Token × Scanner :=
  let start := scanner.skipBlanks
  if start.current = endOfText then start.emit .endOfInput ""
  else if start.current.isDigit then
    let (digits, after) := start.takeRun Char.isDigit
    after.emit .integer (String.ofList digits)
  else if Text.isLetter start.current then
    let (letters, after) := start.takeRun isWordCharacter
    let word := String.ofList letters
    after.emit (wordKind word) word
  else
    match start.operator? with
    | some found => found
    | none => start.skipUnknown.next
termination_by scanner.left
decreasing_by
  have bound := left_skipBlanks scanner
  have less := left_advance scanner.skipBlanks ‹_›
  simp only [left_skipUnknown]
  omega

theorem left_emit (scanner : Scanner) (kind : Kind) (lexeme : String) :
    (scanner.emit kind lexeme).2.left = scanner.left := rfl

theorem left_operator? (scanner : Scanner) (inside : scanner.current ≠ endOfText)
    (found : Token × Scanner) (run : scanner.operator? = some found) :
    found.2.left < scanner.left := by
  have less := left_advance scanner inside
  have lessAgain := left_advance_le scanner.advance
  simp only [operator?] at run
  split at run
  · cases Option.some.inj run
    rw [left_emit]
    omega
  · obtain ⟨kind, _, same⟩ := Option.map_eq_some_iff.mp run
    subst same
    rw [left_emit]
    exact less

/-- Every token but the end of the input takes at least one character. -/
theorem left_next (scanner : Scanner) (token : scanner.next.1.kind ≠ .endOfInput) :
    scanner.next.2.left < scanner.left := by
  fun_induction next scanner with
  | case1 => exact absurd rfl token
  | case2 scanner start inside digit digits after run =>
    have bound := left_skipBlanks scanner
    have less := left_takeRun Char.isDigit start inside digit
    simp only [run] at less
    exact Nat.lt_of_lt_of_le less bound
  | case3 scanner start inside _ letter letters after run =>
    have bound := left_skipBlanks scanner
    have less := left_takeRun isWordCharacter start inside (by simp [isWordCharacter, letter])
    simp only [run] at less
    exact Nat.lt_of_lt_of_le less bound
  | case4 scanner start inside _ _ found run =>
    exact Nat.lt_of_lt_of_le (left_operator? start inside found run) (left_skipBlanks scanner)
  | case5 scanner start inside _ _ _ ih =>
    have bound : start.left ≤ scanner.left := left_skipBlanks scanner
    have less := left_advance start inside
    have more := ih token
    rw [left_skipUnknown] at more
    omega

/-- The tokens before the end of the input. -/
def tokens (scanner : Scanner) : List Token × Scanner :=
  let step := scanner.next
  if step.1.kind = .endOfInput then ([], step.2)
  else
    let rest := step.2.tokens
    (step.1 :: rest.1, rest.2)
termination_by scanner.left
decreasing_by exact left_next scanner ‹_›

/-- Passes over so many tokens. -/
def nextMany : Nat → Scanner → Scanner
  | 0, scanner => scanner
  | n + 1, scanner => nextMany n scanner.next.2

/-- The ways to use a scanner. A command to the reader takes characters behind the scanner's own. -/
inductive Command where
  | next
  | tokens
  | reader (command : Reader.Command)
deriving DecidableEq, Repr, Inhabited

/-- What a command gives back. -/
inductive Answer where
  | token (token : Token)
  | tokens (tokens : List Token)
  | characters (characters : Option (List Char))
deriving DecidableEq, Repr, Inhabited

def perform (scanner : Scanner) : Command → Answer × Scanner
  | .next => let (token, after) := scanner.next; (.token token, after)
  | .tokens => let (tokens, after) := scanner.tokens; (.tokens tokens, after)
  | .reader command =>
    let (characters, after) := scanner.reader.perform command
    (.characters characters, { scanner with reader := after })

end Scanner

end AdaFront
