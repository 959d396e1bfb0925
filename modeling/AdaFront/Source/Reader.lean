import AdaFront.Event
import AdaFront.Text.Lower

namespace AdaFront

/-- The character that stands for the end of the text. -/
def endOfText : Char := '\x03'

/-- A source text that is read character by character. -/
structure Reader where
  /-- The characters of the current line that are still to be read. -/
  ahead : List Char
  /-- The lines below the current one. -/
  below : List String
  spot : Spot
  journal : Journal
deriving DecidableEq, Repr, Inhabited

namespace Reader

def ofLines (lines : List String) : Reader :=
  ⟨[], lines, ⟨none, 0, 0⟩, []⟩

def ofSource (source : String) : Reader :=
  ofLines (Text.lines source)

def log (reader : Reader) (event : Event) : Reader :=
  { reader with journal := event :: reader.journal }

/-- Makes the line the current one. Every line ends in a line feed. -/
def startLine (reader : Reader) (line : String) (below : List String) : Reader :=
  let number := reader.spot.number + 1
  { ahead := line.toList ++ ['\n']
    below := below
    spot := ⟨some line, number, 0⟩
    journal := .lineRead number line :: reader.journal }

/-- The next character of the current line, in lower case. -/
def take (reader : Reader) : Char × Reader :=
  match reader.ahead with
  | [] => (endOfText, { reader with spot := ⟨none, reader.spot.number, 0⟩ })
  | c :: rest =>
    (Text.lower c,
      { reader with ahead := rest, spot := { reader.spot with column := reader.spot.column + 1 } })

/-- The next character of the text. At the end of the text no line is current any more. -/
def next (reader : Reader) : Char × Reader :=
  match reader.ahead, reader.below with
  | [], line :: below => (reader.startLine line below).take
  | _, _ => reader.take

def report (reader : Reader) (diagnostic : Diagnostic) : Reader :=
  reader.log (.reported reader.spot diagnostic)

def note (reader : Reader) (text : String) : Reader :=
  reader.log (.noted text)

def summarize (reader : Reader) : Reader :=
  reader.log (.summarized reader.journal.errors)

/-- The number of characters that are still to be read. -/
def unread (reader : Reader) : Nat :=
  reader.ahead.length + reader.below.foldr (fun line rest => line.toList.length + 1 + rest) 0

theorem unread_take (reader : Reader) (present : reader.ahead ≠ []) :
    reader.take.2.unread + 1 = reader.unread := by
  unfold take
  split
  next empty => exact absurd empty present
  next rest same => simp only [unread, same, List.length_cons]; omega

theorem unread_startLine (reader : Reader) (line : String) (below : List String)
    (empty : reader.ahead = []) (lines : reader.below = line :: below) :
    (reader.startLine line below).unread = reader.unread := by
  simp only [unread, startLine, empty, lines, List.length_append, List.length_cons, List.length_nil,
    List.foldr_cons]
  omega

/-- Reading takes one character as long as there is one. -/
theorem unread_next (reader : Reader) : reader.next.2.unread = reader.unread - 1 := by
  unfold next
  split
  next line below empty lines =>
    have same := unread_startLine reader line below empty lines
    have less := unread_take (reader.startLine line below) (by simp [startLine])
    omega
  next other =>
    by_cases empty : reader.ahead = []
    · have lines : reader.below = [] := by
        cases atBelow : reader.below with
        | nil => rfl
        | cons line below => exact absurd atBelow (other line below empty)
      simp [take, unread, empty, lines]
    · have less := unread_take reader empty
      omega

/-- Where nothing is left, reading gives the mark of the end. -/
theorem next_of_unread_eq_zero (reader : Reader) (nothing : reader.unread = 0) :
    reader.next.1 = endOfText := by
  have atAhead : reader.ahead = [] := by
    cases same : reader.ahead with
    | nil => rfl
    | cons c rest => simp [unread, same] at nothing
  have atBelow : reader.below = [] := by
    cases same : reader.below with
    | nil => rfl
    | cons line below => simp [unread, same] at nothing
  simp [next, take, atAhead, atBelow]

/-- Reads up to the next mark of the end, which is not among the characters. -/
def drain (reader : Reader) : List Char × Reader :=
  let step := reader.next
  if step.1 = endOfText then ([], step.2)
  else
    let rest := step.2.drain
    (step.1 :: rest.1, rest.2)
termination_by reader.unread
decreasing_by
  have less := unread_next reader
  have present : reader.unread ≠ 0 := fun nothing => ‹¬_› (next_of_unread_eq_zero reader nothing)
  omega

/-- Reads so many characters, marks of the end included. -/
def takeMany : Nat → Reader → List Char × Reader
  | 0, reader => ([], reader)
  | n + 1, reader =>
    let (c, after) := reader.next
    let (rest, last) := takeMany n after
    (c :: rest, last)

/-- The ways to use a reader. -/
inductive Command where
  | chars (count : Nat)
  | drain
  | report (text : String)
  | note (text : String)
  | summarize
deriving DecidableEq, Repr, Inhabited

/-- Carries out a command. The answer holds the characters that were read, where the command asks
for characters. -/
def perform (reader : Reader) : Command → Option (List Char) × Reader
  | .chars count => let (chars, after) := reader.takeMany count; (some chars, after)
  | .drain => let (chars, after) := reader.drain; (some chars, after)
  | .report text => (none, reader.report (.remark text))
  | .note text => (none, reader.note text)
  | .summarize => (none, reader.summarize)

end Reader

end AdaFront
