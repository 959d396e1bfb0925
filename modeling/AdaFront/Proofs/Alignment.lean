import Mathlib.Data.List.Basic
import Mathlib.Data.List.TakeWhile
import AdaFront.Proofs.Streaming
import AdaFront.Proofs.Verbosity

namespace AdaFront

/-- What an echo puts before a line. -/
def echoHead (number : Nat) : String :=
  "#" ++ Text.padLeft 2 (toString number) ++ ": "

/-- A line as it would be echoed if the blanks at its end were not cut off. -/
def echoWhole (number : Nat) (line : String) : List Char :=
  (echoHead number).toList ++ (line.toList ++ ['\n'])

theorem echo_cuts (number : Nat) (line : String) :
    ∃ blanks, echoWhole number line = (echo number line).toList ++ blanks ∧
      ∀ c ∈ blanks, Text.isBlank c = true := by
  have split := List.takeWhile_append_dropWhile (p := Text.isBlank) (l := line.toList.reverse)
  refine ⟨(line.toList.reverse.takeWhile Text.isBlank).reverse ++ ['\n'], ?_, ?_⟩
  · have whole := congrArg List.reverse split
    rw [List.reverse_append, List.reverse_reverse] at whole
    have shown : (echo number line).toList =
        (echoHead number).toList ++ (line.toList.reverse.dropWhile Text.isBlank).reverse := by
      rw [echo, String.toList_append, Text.trimmedEnd, String.toList_ofList, echoHead]
    rw [shown, echoWhole, List.append_assoc, ← List.append_assoc (List.reverse _), whole]
  · refine List.forall_mem_append.mpr ⟨fun c member => ?_, List.forall_mem_singleton.mpr (by decide)⟩
    exact List.mem_takeWhile_imp (List.mem_reverse.mp member)

/-- The number takes two characters at least. -/
theorem length_echoHead (number : Nat) : (echoHead number).length = 3 + max 2 (toString number).length := by
  simp only [echoHead, Text.padLeft, Text.spaces, String.length_append, String.length_ofList, List.length_replicate]
  have marks : "#".length = 1 ∧ ": ".length = 2 := by decide
  omega

theorem idxOf_marked (column : Nat) (message : String) :
    (marked column message).toList.idxOf 'E' = echoMargin + column := by
  have outside : 'E' ∉ List.replicate (echoMargin + column) ' ' := fun member =>
    absurd (List.eq_of_mem_replicate member) (by decide)
  rw [toList_marked, List.idxOf_append_of_notMem outside, List.idxOf_cons_self, List.length_replicate, Nat.add_zero]

namespace Spot

/-- Where the character that was read last stands in the echo of its line. -/
def place (spot : Spot) : Nat :=
  (echoHead spot.number).length + (spot.column - 1)

/-- Where the `E` stands in the message of an error. -/
def mark (spot : Spot) (diagnostic : Diagnostic) : Nat :=
  (marked spot.column diagnostic.message).toList.idxOf 'E'

/-- What a quiet run writes of an error while a line is current: the line's echo and below it the message. The
character that was read last has its place in the echo or in what the echo leaves out. The `E` of the message stands
one character before that place for each digit of the line's number behind the second. -/
structure Marks (spot : Spot) (line : String) (last : Char) (diagnostic : Diagnostic) : Prop where
  lines : (Event.reported spot diagnostic).diagnosticLines false =
    [echo spot.number line, marked spot.column diagnostic.message]
  cut : ∃ blanks, echoWhole spot.number line = (echo spot.number line).toList ++ blanks ∧
    ∀ c ∈ blanks, Text.isBlank c = true
  last : (echoWhole spot.number line)[spot.place]? = some last
  apart : spot.place = spot.mark diagnostic + ((toString spot.number).length - 2)
  aligned : spot.mark diagnostic = spot.place ↔ spot.number < 100

/-- Reading stands in a line of the text, behind the given character. -/
structure Behind (lines : List String) (line : String) (last : Char) (spot : Spot) : Prop where
  found : (spot.number, line) ∈ numbered lines
  positive : 1 ≤ spot.column
  read : (line.toList ++ ['\n'])[spot.column - 1]? = some last

theorem Behind.marks {lines : List String} {line : String} {last : Char} {spot : Spot}
    (behind : spot.Behind lines line last) (current : spot.text = some line) (diagnostic : Diagnostic) :
    spot.Marks line last diagnostic := by
  have positive := behind.positive
  have mark : spot.mark diagnostic = 4 + spot.column := idxOf_marked _ _
  have place : spot.place = 3 + max 2 (toString spot.number).length + (spot.column - 1) :=
    congrArg (· + (spot.column - 1)) (length_echoHead spot.number)
  have short : (toString spot.number).length ≤ 2 ↔ spot.number < 100 := Nat.length_repr_le_iff (by decide)
  have shown : (Event.reported spot diagnostic).diagnosticLines false =
      [echo spot.number line, marked spot.column diagnostic.message] := by
    rw [Event.diagnosticLines, current]
    rfl
  refine ⟨shown, echo_cuts _ _, ?_, ?_, ?_⟩
  · rw [place, echoWhole, ← length_echoHead, ← String.length_toList,
      List.getElem?_append_right (Nat.le_add_right _ _), Nat.add_sub_cancel_left]
    exact behind.read
  · omega
  · rw [← short]
    omega

end Spot

/-- A character of a line and its line feed has its place in the stream behind the lines above. -/
theorem getElem?_stream {lines : List String} {index position : Nat} {line : String} {c : Char}
    (found : lines[index]? = some line) (atPosition : (line.toList ++ ['\n'])[position]? = some c) :
    (stream lines)[offset lines index + position]? = some (Text.lower c) := by
  obtain ⟨inside, rfl⟩ := List.getElem?_eq_some_iff.mp found
  have feed : Text.lower '\n' = '\n' := by decide
  have split : lines = lines.take index ++ (lines[index] :: lines.drop (index + 1)) := by
    rw [List.getElem_cons_drop, List.take_append_drop]
  have whole : stream lines = stream (lines.take index) ++
      (((lines[index].toList ++ ['\n']).map Text.lower) ++ stream (lines.drop (index + 1))) := by
    conv_lhs => rw [split]
    rw [stream_append, List.map_append, List.map_singleton, feed]
    rfl
  have mapped : ((lines[index].toList ++ ['\n']).map Text.lower)[position]? = some (Text.lower c) := by
    rw [List.getElem?_map, atPosition]
    rfl
  have bound : position < ((lines[index].toList ++ ['\n']).map Text.lower).length :=
    (List.getElem?_eq_some_iff.mp mapped).1
  rw [whole, offset, List.getElem?_append_right (Nat.le_add_right _ _), Nat.add_sub_cancel_left,
    List.getElem?_append_left bound, mapped]

namespace Reader

variable {lines : List String} {line : String} {count : Nat} {reader : Reader}

/-- While a line is current, the character that was read last is the one before the column. -/
theorem Stands.behind_last (stands : reader.Stands lines count) (current : reader.spot.text = some line) :
    ∃ last, 0 < count ∧ (stream lines)[count - 1]? = some (Text.lower last) ∧
      reader.spot.Behind lines line last := by
  cases stands with
  | before _ _ spot =>
    rw [spot] at current
    cases current
  | @within index line' passed found present text _ spot =>
    rw [spot] at current
    obtain rfl : line' = line := Option.some.inj current
    have positive : 1 ≤ passed.length := List.length_pos_iff.mpr present
    have last : (line'.toList ++ ['\n'])[passed.length - 1]? = some (passed.getLast present) := by
      rw [text, List.getElem?_append_left (by omega), ← List.getLast?_eq_getElem?,
        List.getLast?_eq_some_getLast present]
    have streamed := getElem?_stream found last
    rw [← Nat.add_sub_assoc positive] at streamed
    refine ⟨passed.getLast present, by omega, streamed, ?_⟩
    obtain ⟨inside, line⟩ := List.getElem?_eq_some_iff.mp found
    rw [spot]
    exact ⟨List.mem_mapIdx.mpr ⟨index, inside, congrArg (Prod.mk _) line⟩, positive, last⟩
  | behind _ _ spot =>
    rw [spot] at current
    cases current

theorem serveAll_concat (reader : Reader) (calls : List Call) (call : Call) :
    (reader.serveAll (calls ++ [call])).2 = ((reader.serveAll calls).2.serve call).2 := by
  induction calls generalizing reader with
  | nil => rfl
  | cons first calls ih => exact ih _

/-- The last character that a reader has given is the one before its column, if a line is current. -/
theorem serveAll_behind (lines : List String) (calls : List Call) {line : String} :
    let served := (ofLines lines).serveAll calls
    served.2.spot.text = some line →
      ∃ last, served.1.getLast? = some (Text.lower last) ∧ served.2.spot.Behind lines line last := by
  intro served current
  obtain ⟨chars, streams⟩ := (Streams.ofLines lines).serveAll calls
  rw [Nat.zero_add] at streams
  obtain ⟨last, positive, streamed, behind⟩ := streams.stands.behind_last current
  refine ⟨last, ?_, behind⟩
  obtain ⟨count, more⟩ := Nat.exists_eq_add_one_of_ne_zero (Nat.ne_of_gt positive)
  rw [more, Nat.add_sub_cancel] at streamed
  rw [chars, more, ← List.range_eq_range', List.range_succ, List.map_append, List.map_singleton,
    List.getLast?_concat, List.getD_eq_getElem?_getD, streamed]
  rfl

/-- Some calls bring a reader of the lines to the same place. -/
def Visits (lines : List String) (reader : Reader) : Prop :=
  ∃ calls, reader.SamePlace ((ofLines lines).serveAll calls).2

end Reader

/-- A spot that a reader of the lines comes to by some calls. -/
def Spot.Visited (lines : List String) (spot : Spot) : Prop :=
  ∃ calls, ((Reader.ofLines lines).serveAll calls).2.spot = spot

/-- If the event is a report, it is made where a reader of the lines comes to. -/
def Event.Visited (lines : List String) : Event → Prop
  | .reported spot _ => spot.Visited lines
  | _ => True

namespace Reader

variable {lines : List String} {reader : Reader}

theorem Visits.spot (visits : reader.Visits lines) : reader.spot.Visited lines := by
  obtain ⟨calls, same⟩ := visits
  exact ⟨calls, same.spot.symm⟩

theorem Visits.next (visits : reader.Visits lines) : reader.next.2.Visits lines := by
  obtain ⟨calls, same⟩ := visits
  refine ⟨calls ++ [.next], ?_⟩
  rw [serveAll_concat]
  exact same.next.2

/-- A reader whose reports so far were made where it has come to. -/
structure Reports (lines : List String) (reader : Reader) : Prop where
  place : reader.Visits lines
  journal : ∀ event ∈ reader.journal, event.Visited lines

theorem reports_ofLines (lines : List String) : (ofLines lines).Reports lines where
  place := ⟨[], rfl, rfl, rfl⟩
  journal := List.forall_mem_nil _

theorem Reports.log {event : Event} (reports : reader.Reports lines) (visited : event.Visited lines) :
    (reader.log event).Reports lines := by
  obtain ⟨calls, ahead, below, spot⟩ := reports.place
  exact ⟨⟨calls, ahead, below, spot⟩, List.forall_mem_cons.mpr ⟨visited, reports.journal⟩⟩

theorem keeps_reports (lines : List String) : Scanner.Keeps (Reports lines) where
  scanned reports := reports.log trivial
  unknown reports := reports.log reports.place.spot
  next {reader} reports := by
    refine ⟨reports.place.next, ?_⟩
    rcases reader.next_cases with ⟨line, rest, _, journal, _⟩ | ⟨journal, _⟩
    · rw [journal]
      exact List.forall_mem_cons.mpr ⟨trivial, reports.journal⟩
    · rw [journal]
      exact reports.journal

end Reader

namespace Feed

/-- All spots of a feed are such that a reader of the lines comes to them. -/
def Visited (lines : List String) : Feed → Prop
  | last spot journal => spot.Visited lines ∧ ∀ event ∈ journal, event.Visited lines
  | more head rest =>
    (head.spot.Visited lines ∧ ∀ event ∈ head.journal, event.Visited lines) ∧ rest.Visited lines

variable {lines : List String} {feed : Feed}

theorem Visited.first (visited : feed.Visited lines) :
    feed.spot.Visited lines ∧ ∀ event ∈ feed.journal, event.Visited lines := by
  cases feed with
  | last => exact visited
  | more => exact visited.1

theorem Visited.advance (visited : feed.Visited lines) : feed.advance.Visited lines := by
  cases feed with
  | last => exact ⟨visited.1, List.forall_mem_singleton.mpr trivial⟩
  | more => exact visited.2

end Feed

theorem Scanner.feed_visited {lines : List String} (scanner : Scanner)
    (reports : scanner.reader.Reports lines) : scanner.feed.Visited lines := by
  refine (Reader.keeps_reports lines).feed (fun reports => ?_)
    (fun _ reports => ⟨reports.place.spot, reports.journal⟩)
    (fun _ _ _ reports rest => ⟨⟨reports.place.spot, reports.journal⟩, rest⟩) reports
  obtain ⟨calls, ahead, below, spot⟩ := reports.place
  exact ⟨⟨calls, ahead, below, spot⟩, List.forall_mem_nil _⟩

namespace Analysis

/-- An analysis reports at the spots of its feed. -/
theorem invariant_visited (lines : List String) : Invariant fun state =>
    state.feed.Visited lines ∧ ∀ event ∈ state.journal, event.Visited lines := by
  refine .ofEvents Feed.Visited.advance (fun visited => visited.first.2) (fun _ visited => visited.first.1) ?_
  intro event silent _
  cases event with
  | reported => cases silent
  | _ => trivial

end Analysis

namespace Compilation

/-- Every report of a run is made at a spot that a reader of the source comes to. -/
theorem reported_visited {source : String} {spot : Spot} {diagnostic : Diagnostic}
    (member : .reported spot diagnostic ∈ (ofSource source).journal) : spot.Visited (Text.lines source) := by
  generalize same : Text.lines source = lines
  let reader := (Reader.ofLines lines).log (.started lines.length)
  have opened : reader.Reports lines := (Reader.reports_ofLines lines).log trivial
  have started : reader.next.2.Reports lines := (Reader.keeps_reports lines).next opened
  have feed : (Scanner.ofReader reader).feed.Visited lines := Scanner.feed_visited _ started
  have start : (begin source).feed.Visited lines ∧ ∀ event ∈ (begin source).journal, event.Visited lines := by
    rw [begin, same]
    refine ⟨feed, List.forall_mem_append.mpr ⟨feed.first.2, ?_⟩⟩
    exact List.forall_mem_cons.mpr ⟨trivial, started.journal⟩
  have ended : ∀ event ∈ (ofSource source).outcome.state.journal, event.Visited lines :=
    ((Analysis.invariant_visited lines).run start).2
  rw [journal_ofSource] at member
  rcases List.mem_cons.mp member with other | said
  · cases other
  · rcases List.mem_append.mp said with other | within
    · obtain ⟨_, _, same⟩ := Option.map_eq_some_iff.mp (Option.mem_toList.mp other)
      cases same
    · exact ended _ within

/-- The lines that an event adds to the diagnostics stand there one below the other. -/
theorem linesOn_of_mem {event : Event} {journal : Journal} (member : event ∈ journal) (verbose : Bool) :
    ∃ above below, journal.linesOn verbose .diagnostics = above ++ event.diagnosticLines verbose ++ below := by
  obtain ⟨later, earlier, rfl⟩ := List.append_of_mem member
  refine ⟨earlier.reverse.flatMap (Event.linesOn verbose .diagnostics),
    later.reverse.flatMap (Event.linesOn verbose .diagnostics), ?_⟩
  rw [Journal.linesOn, List.reverse_append, List.reverse_cons, List.flatMap_append, List.flatMap_append,
    List.flatMap_singleton]
  rfl

end Compilation

/-- A report that is made while a line is current marks the character that was read last. However a reader is
called, it writes the line and the message one below the other, and so does every compilation, whose reports are
made where a reader of its source comes to. The `E` stands below the character that was read last exactly if the
number of the line is below 100. From there on it stands too far left, one character for each digit of the number
behind the second. -/
theorem report_marks_last (lines : List String) :
    (∀ calls line diagnostic,
      let served := (Reader.ofLines lines).serveAll calls
      let spot := served.2.spot
      spot.text = some line →
        (spot.number, line) ∈ numbered lines ∧
        ∃ last, served.1.getLast? = some (Text.lower last) ∧ spot.Marks line last diagnostic ∧
          (served.2.report diagnostic).journal.linesOn false .diagnostics =
            served.2.journal.linesOn false .diagnostics ++
              [echo spot.number line, marked spot.column diagnostic.message]) ∧
    ∀ source, Text.lines source = lines → ∀ spot line diagnostic,
      let journal := (Compilation.ofSource source).journal
      .reported spot diagnostic ∈ journal → spot.text = some line →
        (spot.number, line) ∈ numbered lines ∧
        ∃ calls last above below,
          let served := (Reader.ofLines lines).serveAll calls
          served.2.spot = spot ∧ served.1.getLast? = some (Text.lower last) ∧ spot.Marks line last diagnostic ∧
          journal.linesOn false .diagnostics =
            above ++ [echo spot.number line, marked spot.column diagnostic.message] ++ below := by
  constructor
  · intro calls line diagnostic served spot current
    obtain ⟨last, given, behind⟩ := Reader.serveAll_behind lines calls current
    have marks : spot.Marks line last diagnostic := behind.marks current diagnostic
    refine ⟨behind.found, last, given, marks, ?_⟩
    rw [← marks.lines]
    exact Journal.linesOn_cons _ _ _ _
  · rintro source rfl spot line diagnostic journal member current
    obtain ⟨calls, rfl⟩ := Compilation.reported_visited member
    obtain ⟨last, given, behind⟩ := Reader.serveAll_behind (Text.lines source) calls current
    have marks := behind.marks current diagnostic
    obtain ⟨above, below, written⟩ := Compilation.linesOn_of_mem member false
    refine ⟨behind.found, calls, last, above, below, rfl, given, marks, ?_⟩
    rw [← marks.lines]
    exact written

/-- In line 100 the `;` behind the unknown symbol has been read last and is the eighth character of the echo, but
the `E` is the seventh character of its line. -/
theorem report_misses_in_line_hundred :
    let source := String.ofList (List.replicate 99 '\n') ++ "@;"
    let spot : Spot := ⟨some "@;", 100, 2⟩
    let diagnostic : Diagnostic := .unknownSymbol '@'
    .reported spot diagnostic ∈ (Compilation.ofSource source).journal ∧
      (Event.reported spot diagnostic).diagnosticLines false = ["#100: @;", "      E: unknown symbol '@'"] ∧
      spot.place = 7 ∧ spot.mark diagnostic = 6 := by
  decide +kernel

end AdaFront
