import AdaFront.Proofs.LinesRead

namespace AdaFront

/-- A line of the diagnostics, told by what it is: a line of the source with its number, an error message below
a column, or another text. -/
inductive Written where
  | echo (number : Nat) (line : String)
  | message (column : Nat) (text : String)
  | other (text : String)
deriving DecidableEq, Repr

namespace Written

/-- The line as it is written. -/
def text : Written → String
  | .echo number line => AdaFront.echo number line
  | .message column text => marked column text
  | .other text => text

def echo? : Written → Option (Nat × String)
  | .echo number line => some (number, line)
  | _ => none

end Written

/-- What an event adds to the diagnostics, each line told by what it is. -/
def Event.written (verbose : Bool) : Event → List Written
  | .lineRead number line => if verbose then [.echo number line] else []
  | .reported spot diagnostic =>
    let above := if verbose then none else spot.text
    above.toList.map (.echo spot.number) ++ [.message spot.column diagnostic.message]
  | event => (event.diagnosticLines verbose).map .other

namespace Journal

/-- The lines that the events of a journal add to the diagnostics, in their order. -/
def written (journal : Journal) (verbose : Bool) : List Written :=
  journal.reverse.flatMap (Event.written verbose)

theorem written_cons (event : Event) (journal : Journal) (verbose : Bool) :
    written (event :: journal) verbose = journal.written verbose ++ event.written verbose := by
  rw [written, List.reverse_cons, List.flatMap_append, List.flatMap_singleton, written]

/-- The lines of the source that are echoed, with their numbers. -/
def echoes (journal : Journal) (verbose : Bool) : List (Nat × String) :=
  (journal.written verbose).filterMap Written.echo?

theorem echoes_cons (event : Event) (journal : Journal) (verbose : Bool) :
    echoes (event :: journal) verbose =
      journal.echoes verbose ++ (event.written verbose).filterMap Written.echo? := by
  rw [echoes, written_cons, List.filterMap_append, echoes]

end Journal

/-- Lines with their numbers, from 1 on. -/
def numbered (lines : List String) : List (Nat × String) :=
  lines.mapIdx fun index line => (index + 1, line)

/-- The characters that a reader gives of some lines, each line up to its line feed. -/
def stream (lines : List String) : List Char :=
  lines.flatMap fun line => line.toList.map Text.lower ++ ['\n']

/-- The number of the characters in the lines above one, line feeds included. -/
def offset (lines : List String) (index : Nat) : Nat :=
  (stream (lines.take index)).length

section Offset

variable {lines : List String} {index : Nat} {line : String}

theorem stream_append (lines more : List String) : stream (lines ++ more) = stream lines ++ stream more :=
  List.flatMap_append

theorem offset_succ (found : lines[index]? = some line) :
    offset lines (index + 1) = offset lines index + (line.length + 1) := by
  have single : (stream [line]).length = line.length + 1 := by
    rw [stream, List.flatMap_singleton, List.length_append, List.length_map, String.length_toList,
      List.length_singleton]
  rw [offset, List.take_add_one, found, Option.toList_some, stream_append, List.length_append, single, offset]

theorem offset_le {one other : Nat} (le : one ≤ other) : offset lines one ≤ offset lines other := by
  obtain ⟨more, whole⟩ : lines.take one <+: lines.take other := List.take_prefix_take_left le
  rw [offset, offset, ← whole, stream_append, List.length_append]
  exact Nat.le_add_right _ _

theorem length_stream (lines : List String) : (stream lines).length = offset lines lines.length := by
  rw [offset, List.take_length]

theorem within_stream (found : lines[index]? = some line) {column : Nat} (inLine : column ≤ line.length + 1) :
    offset lines index + column ≤ (stream lines).length := by
  have bound : index + 1 ≤ lines.length := (List.getElem?_eq_some_iff.mp found).1
  rw [length_stream]
  refine Nat.le_trans ?_ (offset_le bound)
  rw [offset_succ found]
  exact Nat.add_le_add_left inLine _

theorem numbered_take_succ (found : lines[index]? = some line) :
    numbered (lines.take (index + 1)) = numbered (lines.take index) ++ [(index + 1, line)] := by
  have inside : index < lines.length := (List.getElem?_eq_some_iff.mp found).1
  rw [numbered, List.take_add_one, found, Option.toList_some, List.mapIdx_concat, List.length_take,
    Nat.min_eq_left (Nat.le_of_lt inside), numbered]

end Offset

/-- In this line and column a reader stands that has given so many characters: the lines above the line, with
their line feeds, and the characters up to the column make up the number. -/
def IsPosition (lines : List String) (count : Nat) (position : Nat × Nat) : Prop :=
  ∃ index line, lines[index]? = some line ∧ position.1 = index + 1 ∧
    1 ≤ position.2 ∧ position.2 ≤ line.length + 1 ∧ offset lines index + position.2 = count

/-- Within the text each number of characters has one position. -/
theorem IsPosition.unique {lines : List String} {count : Nat} {one other : Nat × Nat}
    (isOne : IsPosition lines count one) (isOther : IsPosition lines count other) : one = other := by
  obtain ⟨index, line, found, number, positive, bound, whole⟩ := isOne
  obtain ⟨index', line', found', number', positive', bound', whole'⟩ := isOther
  have apart {index index' : Nat} {line : String} (found : lines[index]? = some line) (less : index < index') :
      offset lines index + (line.length + 1) ≤ offset lines index' := by
    rw [← offset_succ found]
    exact offset_le less
  rcases Nat.lt_trichotomy index index' with less | rfl | less
  · have below := apart found less
    omega
  · exact Prod.ext (number.trans number'.symm) (by omega)
  · have below := apart found' less
    omega

namespace Reader

/-- Where a reader stands that has been asked for so many characters: before the first line, behind some
characters of a line, or behind the last line. -/
inductive Stands (lines : List String) (reader : Reader) : Nat → Prop
  | before : reader.ahead = [] → reader.below = lines → reader.spot = ⟨none, 0, 0⟩ → Stands lines reader 0
  | within {index : Nat} {line : String} {passed : List Char} : lines[index]? = some line → passed ≠ [] →
      line.toList ++ ['\n'] = passed ++ reader.ahead → reader.below = lines.drop (index + 1) →
      reader.spot = ⟨some line, index + 1, passed.length⟩ →
      Stands lines reader (offset lines index + passed.length)
  | behind {count : Nat} : reader.ahead = [] → reader.below = [] → reader.spot = ⟨none, lines.length, 0⟩ →
      (stream lines).length < count → Stands lines reader count

/-- What holds of a reader that has been asked for so many characters. -/
structure Streams (lines : List String) (count : Nat) (reader : Reader) : Prop where
  text : (stream lines).drop count = reader.text
  stands : reader.Stands lines count
  echoes : reader.journal.echoes true = numbered (lines.take reader.spot.number)

variable {lines : List String} {count : Nat} {reader : Reader}

theorem length_le_of_append {line : String} {passed rest : List Char}
    (text : line.toList ++ ['\n'] = passed ++ rest) : passed.length ≤ line.length + 1 := by
  have length := congrArg List.length text
  rw [List.length_append, List.length_append, List.length_singleton, String.length_toList] at length
  rw [length]
  exact Nat.le_add_right _ _

namespace Stands

theorem position (stands : reader.Stands lines count) (positive : 0 < count)
    (inside : count ≤ (stream lines).length) :
    IsPosition lines count (reader.spot.number, reader.spot.column) := by
  cases stands with
  | before => exact absurd positive (Nat.lt_irrefl 0)
  | @within index line passed found present text below spot =>
    rw [spot]
    exact ⟨index, line, found, rfl, List.length_pos_iff.mpr present, length_le_of_append text, rfl⟩
  | behind _ _ _ beyond => exact absurd inside (Nat.not_le_of_lt beyond)

theorem unread (stands : reader.Stands lines count) (nothing : count = 0) : reader.spot = ⟨none, 0, 0⟩ := by
  cases stands with
  | before _ _ spot => exact spot
  | within _ present =>
    have positive := List.length_pos_iff.mpr present
    omega
  | behind _ _ _ beyond => omega

/-- A line is current exactly while the text is being read. -/
theorem current (stands : reader.Stands lines count) :
    reader.spot.text =
      if 0 < count ∧ count ≤ (stream lines).length then lines[reader.spot.number - 1]? else none := by
  cases stands with
  | before _ _ spot =>
    rw [if_neg fun inside => Nat.lt_irrefl 0 inside.1, spot]
  | @within index line passed found present text _ spot =>
    have positive : 0 < offset lines index + passed.length :=
      Nat.lt_of_lt_of_le (List.length_pos_iff.mpr present) (Nat.le_add_left _ _)
    rw [if_pos ⟨positive, within_stream found (length_le_of_append text)⟩, spot]
    exact found.symm
  | behind _ _ spot beyond =>
    rw [if_neg fun inside => Nat.not_le_of_lt beyond inside.2, spot]

theorem below (stands : reader.Stands lines count) : reader.below = lines.drop reader.spot.number := by
  cases stands with
  | before _ below spot =>
    rw [below, spot]
    rfl
  | within _ _ _ below spot => rw [below, spot]
  | behind _ below spot _ => rw [below, spot, List.drop_length]

/-- At the end of a line the next one begins, if there is one. -/
theorem next_line (ahead : reader.ahead = []) (below : reader.below = lines.drop reader.spot.number)
    (bound : reader.spot.number ≤ lines.length) :
    reader.next.2.Stands lines (offset lines reader.spot.number + 1) := by
  obtain ⟨_, rest, ⟨current, number, column⟩, journal⟩ := reader
  dsimp only at ahead below bound ⊢
  subst ahead
  cases rest with
  | nil =>
    have last : number = lines.length := Nat.le_antisymm bound (List.drop_eq_nil_iff.mp below.symm)
    subst last
    rw [← length_stream]
    exact .behind rfl rfl rfl (Nat.lt_succ_self _)
  | cons line rest =>
    obtain ⟨found, others⟩ := next_of_drop below
    cases chars : line.toList ++ ['\n'] with
    | nil => exact absurd chars (by simp)
    | cons c behind =>
      have first : [c] ≠ [] := List.cons_ne_nil _ _
      refine .within found first ?_ ?_ ?_
      all_goals simp [next, startLine, take, chars, others]

theorem next (stands : reader.Stands lines count) : reader.next.2.Stands lines (count + 1) := by
  cases stands with
  | before ahead below spot =>
    have first : reader.next.2.Stands lines (offset lines reader.spot.number + 1) := by
      refine next_line ahead ?_ ?_
      · rw [below, spot]
        rfl
      · rw [spot]
        exact Nat.zero_le _
    rw [spot] at first
    exact first
  | @within index line passed found present text below spot =>
    obtain ⟨ahead, rest, current, journal⟩ := reader
    dsimp only at text below spot
    subst spot
    cases ahead with
    | nil =>
      -- The whole line has been passed, its line feed included.
      have bound : index + 1 ≤ lines.length := (List.getElem?_eq_some_iff.mp found).1
      let reader : Reader := ⟨[], rest, ⟨some line, index + 1, passed.length⟩, journal⟩
      have behind : reader.next.2.Stands lines (offset lines (index + 1) + 1) := next_line rfl below bound
      have whole : passed.length = line.length + 1 := by
        rw [List.append_nil] at text
        rw [← text, List.length_append, String.length_toList]
        rfl
      rw [offset_succ found] at behind
      rw [whole]
      exact behind
    | cons c ahead =>
      have length : (passed ++ [c]).length = passed.length + 1 := List.length_append
      rw [Nat.add_assoc, ← length]
      refine .within found (by simp) ?_ below ?_
      · rw [text, List.append_assoc]
        rfl
      · rw [length]
        rfl
  | behind ahead below spot beyond =>
    obtain ⟨_, _, _, journal⟩ := reader
    dsimp only at ahead below spot
    subst ahead below spot
    exact .behind rfl rfl rfl (Nat.lt_succ_of_lt beyond)

end Stands

theorem text_next_of_nil (nothing : reader.text = []) : reader.next.2.text = [] := by
  obtain ⟨ahead, below, spot, journal⟩ := reader
  cases ahead with
  | cons c rest => cases nothing
  | nil =>
    cases below with
    | nil => rfl
    | cons line below =>
      rw [text, List.nil_append, List.flatMap_cons, List.map_append, List.map_append] at nothing
      simp at nothing

/-- In a verbose run each line is echoed when its first character is read. -/
theorem echoes_next (below : reader.below = lines.drop reader.spot.number)
    (echoes : reader.journal.echoes true = numbered (lines.take reader.spot.number)) :
    reader.next.2.journal.echoes true = numbered (lines.take reader.next.2.spot.number) := by
  rcases reader.next_cases with ⟨line, rest, first, journal, number⟩ | ⟨journal, number⟩
  · obtain ⟨found, _⟩ := next_of_drop (first.symm.trans below)
    rw [journal, number, Journal.echoes_cons, echoes, numbered_take_succ found]
    rfl
  · rw [journal, number, echoes]

namespace Streams

theorem ofLines (lines : List String) : (ofLines lines).Streams lines 0 :=
  ⟨(text_ofLines lines).symm, .before rfl rfl rfl, rfl⟩

/-- The next character is the one that the number of those before tells. -/
theorem next (streams : reader.Streams lines count) :
    reader.next.1 = (stream lines).getD count endOfText ∧ reader.next.2.Streams lines (count + 1) := by
  have text := streams.text
  have stands := streams.stands.next
  have echoes := echoes_next streams.stands.below streams.echoes
  rw [List.getD_eq_getElem?_getD, ← List.head?_drop]
  rcases reader.text_next with ⟨nothing, mark⟩ | more
  · rw [nothing] at text
    refine ⟨?_, ?_, stands, echoes⟩
    · rw [text, mark]
      rfl
    · rw [← List.tail_drop, text, text_next_of_nil nothing]
      rfl
  · rw [more] at text
    refine ⟨?_, ?_, stands, echoes⟩
    · rw [text]
      rfl
    · rw [← List.tail_drop, text]
      rfl

/-- What else happens moves nothing. -/
theorem log {event : Event} (streams : reader.Streams lines count)
    (noEcho : (event.written true).filterMap Written.echo? = []) : (reader.log event).Streams lines count := by
  refine ⟨streams.text, ?_, ?_⟩
  · cases streams.stands with
    | before ahead below spot => exact .before ahead below spot
    | within found present text below spot => exact .within found present text below spot
    | behind ahead below spot beyond => exact .behind ahead below spot beyond
  · have same : (reader.log event).journal.echoes true = reader.journal.echoes true := by
      rw [Reader.log, Journal.echoes_cons, noEcho, List.append_nil]
    rw [same]
    exact streams.echoes

end Streams

/-- The ways to call a reader. -/
inductive Call where
  | next
  | report (diagnostic : Diagnostic)
  | note (text : String)
  | summarize
deriving DecidableEq, Repr

def Call.isReport : Call → Bool
  | .report _ => true
  | _ => false

/-- Answers a call, with a character if it asks for one. -/
def serve (reader : Reader) : Call → Option Char × Reader
  | .next => (some reader.next.1, reader.next.2)
  | .report diagnostic => (none, reader.report diagnostic)
  | .note text => (none, reader.note text)
  | .summarize => (none, reader.summarize)

/-- Answers some calls one after another. -/
def serveAll (reader : Reader) : List Call → List Char × Reader
  | [] => ([], reader)
  | call :: calls =>
    let answer := reader.serve call
    let rest := answer.2.serveAll calls
    (answer.1.toList ++ rest.1, rest.2)

theorem Streams.serve (streams : reader.Streams lines count) (call : Call) :
    (reader.serve call).1.toList =
        (List.range' count ([call].count .next)).map ((stream lines).getD · endOfText) ∧
      (reader.serve call).2.Streams lines (count + [call].count .next) := by
  cases call with
  | next =>
    obtain ⟨same, after⟩ := streams.next
    exact ⟨congrArg (fun c => [c]) same, after⟩
  | report diagnostic => exact ⟨rfl, streams.log rfl⟩
  | note text => exact ⟨rfl, streams.log rfl⟩
  | summarize => exact ⟨rfl, streams.log rfl⟩

theorem Streams.serveAll (streams : reader.Streams lines count) (calls : List Call) :
    (reader.serveAll calls).1 = (List.range' count (calls.count .next)).map ((stream lines).getD · endOfText) ∧
      (reader.serveAll calls).2.Streams lines (count + calls.count .next) := by
  induction calls generalizing reader count with
  | nil => exact ⟨rfl, streams⟩
  | cons call calls ih =>
    obtain ⟨answer, after⟩ := streams.serve call
    obtain ⟨rest, last⟩ := ih after
    have parts : (call :: calls).count .next = [call].count .next + calls.count .next := by
      rw [← List.singleton_append, List.count_append]
    rw [parts, ← Nat.add_assoc, ← List.range'_append_1, List.map_append, ← answer, ← rest]
    exact ⟨rfl, last⟩

end Reader

end AdaFront
