import AdaFront.Source.Scanner

namespace AdaFront

/-- A token together with what happened while it was looked for and the spot where reading stood
when it was found. -/
structure Lexed where
  token : Token
  spot : Spot
  journal : Journal
deriving DecidableEq, Repr, Inhabited

/-- The tokens of a source from some point on. The last one is the end of the input, which can be
asked for again and again. -/
inductive Feed where
  | last (spot : Spot) (journal : Journal)
  | more (head : Lexed) (rest : Feed)
deriving DecidableEq, Repr, Inhabited

namespace Feed

def endToken (spot : Spot) : Token :=
  ⟨.endOfInput, "", spot.number, spot.column⟩

/-- The first token. -/
def token : Feed → Token
  | last spot _ => endToken spot
  | more head _ => head.token

def spot : Feed → Spot
  | last spot _ => spot
  | more head _ => head.spot

/-- What happened until the first token was found. -/
def journal : Feed → Journal
  | last _ journal => journal
  | more head _ => head.journal

/-- The feed behind the first token. Behind the end of the input stands the end once more. -/
def advance : Feed → Feed
  | last spot _ => last spot [.scanned (endToken spot)]
  | more _ rest => rest

/-- The number of tokens before the end of the input. -/
def left : Feed → Nat
  | last _ _ => 0
  | more _ rest => rest.left + 1

theorem left_advance_le (feed : Feed) : feed.advance.left ≤ feed.left := by
  cases feed with
  | last => exact Nat.le_refl _
  | more _ rest => exact Nat.le_succ _

theorem left_advance (feed : Feed) (token : feed.token.kind ≠ .endOfInput) :
    feed.advance.left < feed.left := by
  cases feed with
  | last => exact absurd rfl token
  | more _ rest => exact Nat.lt_succ_self _

end Feed

/-- All tokens from the scanner's place on. -/
def Scanner.feed (scanner : Scanner) : Feed :=
  let fresh := { scanner with reader := { scanner.reader with journal := [] } }
  let step := fresh.next
  let reader := step.2.reader
  if step.1.kind = .endOfInput then .last reader.spot reader.journal
  else .more ⟨step.1, reader.spot, reader.journal⟩ step.2.feed
termination_by scanner.left
decreasing_by exact left_next _ ‹_›

end AdaFront
