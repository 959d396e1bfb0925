import AdaFront.Proofs.Deliveries
import AdaFront.Proofs.Wording

namespace AdaFront

open AdaFront.Text (IsLine)

/-- A line that begins with a text. -/
def begins (start line : String) : Bool :=
  start.toList.isPrefixOf line.toList

theorem begins_append {start line : String} (beginning : begins start line = true) (rest : String) :
    begins start (line ++ rest) = true := by
  have whole : start.toList <+: line.toList := List.isPrefixOf_iff_prefix.mp beginning
  rw [begins, String.toList_append]
  exact List.isPrefixOf_iff_prefix.mpr (whole.trans (List.prefix_append _ _))

theorem head?_of_begins {start line : String} {first : Char} (beginning : begins start line = true)
    (opens : start.toList.head? = some first) : line.toList.head? = some first := by
  obtain ⟨rest, whole⟩ : start.toList <+: line.toList := List.isPrefixOf_iff_prefix.mp beginning
  rw [← whole, List.head?_append, opens]
  rfl

/-- A line does not begin with a text that opens otherwise. -/
theorem begins_of_head {start line : String} {first : Char} (opens : start.toList.head? = some first)
    (other : line.toList.head? ≠ some first) : begins start line = false :=
  Bool.eq_false_iff.mpr fun beginning => other (head?_of_begins beginning opens)

/-- An echoed line of the source. -/
def isEcho (line : String) : Bool :=
  begins "#" line

/-- A line of the trace of the scopes. -/
def isTrace (line : String) : Bool :=
  begins "***" line || begins "Name:" line

/-- An error message behind its indentation. -/
def isMessage (line : String) : Bool :=
  begins "    " line && begins "E: " (String.ofList (line.toList.dropWhile (· == ' ')))

/-- What a run writes beside its messages: an echo, and in a verbose run the trace of the scopes. -/
def isAside (verbose : Bool) (line : String) : Bool :=
  isEcho line || (verbose && isTrace line)

theorem isEcho_echo (number : Nat) (text : String) : isEcho (echo number text) = true :=
  begins_append (begins_append (begins_append (by decide) _) _) _

theorem Entry.isTrace_description (entry : Entry) : isTrace entry.description = true := by
  have name : begins "Name:" entry.description = true :=
    begins_append (begins_append (begins_append (begins_append (begins_append (by decide) _) _) _) _) _
  rw [isTrace, name, Bool.or_true]

theorem isAside_of_isEcho {line : String} (verbose : Bool) (echoed : isEcho line = true) :
    isAside verbose line = true := by
  rw [isAside, echoed, Bool.true_or]

theorem isAside_of_stars {line : String} (stars : begins "***" line = true) : isAside true line = true := by
  rw [isAside, isTrace, stars, Bool.true_or, Bool.and_self, Bool.or_true]

/-- What opens like neither an echo nor a trace is no aside. -/
theorem isAside_of_head {line : String} {first : Char} (verbose : Bool) (opens : line.toList.head? = some first)
    (apart : first ∉ ['#', '*', 'N']) : isAside verbose line = false := by
  simp only [List.mem_cons, List.not_mem_nil, or_false, not_or] at apart
  obtain ⟨hash, star, capital⟩ := apart
  have other {c : Char} (apart : first ≠ c) : line.toList.head? ≠ some c := by
    rw [opens]
    exact fun same => apart (Option.some.inj same)
  have noEcho : isEcho line = false := begins_of_head rfl (other hash)
  have noStars : begins "***" line = false := begins_of_head rfl (other star)
  have noName : begins "Name:" line = false := begins_of_head rfl (other capital)
  rw [isAside, isTrace, noEcho, noStars, noName, Bool.or_self, Bool.and_false, Bool.or_self]

theorem toList_marked (column : Nat) (message : String) :
    (marked column message).toList =
      List.replicate (echoMargin + column) ' ' ++ 'E' :: ':' :: ' ' :: message.toList := by
  rw [marked, String.toList_append, String.toList_append, Text.spaces, String.toList_ofList, List.append_assoc]
  rfl

theorem head?_marked (column : Nat) (message : String) : (marked column message).toList.head? = some ' ' := by
  have width : echoMargin + column = (3 + column) + 1 := by
    simp only [echoMargin]
    omega
  rw [toList_marked, width, List.replicate_succ]
  rfl

theorem isAside_marked (verbose : Bool) (column : Nat) (message : String) :
    isAside verbose (marked column message) = false :=
  isAside_of_head verbose (head?_marked column message) (by decide)

theorem isMessage_marked (column : Nat) (message : String) : isMessage (marked column message) = true := by
  have indented : begins "    " (marked column message) = true := by
    rw [begins, toList_marked, ← List.replicate_append_replicate, List.append_assoc]
    exact List.isPrefixOf_iff_prefix.mpr (List.prefix_append _ _)
  have behind : (marked column message).toList.dropWhile (· == ' ') = 'E' :: ':' :: ' ' :: message.toList := by
    have blank : ∀ c ∈ List.replicate (echoMargin + column) ' ', (c == ' ') = true :=
      fun c member => beq_iff_eq.mpr (List.eq_of_mem_replicate member)
    rw [toList_marked, List.dropWhile_append_of_pos blank]
    rfl
  rw [isMessage, indented, behind, begins, String.toList_ofList, String.toList_ofList]
  rfl

theorem isMessage_of_head {line : String} (opens : line.toList.head? ≠ some ' ') :
    isMessage line = false := by
  rw [isMessage, begins_of_head rfl opens, Bool.false_and]

theorem isMessage_of_begins {line start : String} {first : Char} (beginning : begins start line = true)
    (opens : start.toList.head? = some first) (solid : first ≠ ' ') : isMessage line = false := by
  refine isMessage_of_head fun blank => ?_
  rw [head?_of_begins beginning opens] at blank
  exact solid (Option.some.inj blank)

theorem isMessage_of_isAside {verbose : Bool} {line : String} (aside : isAside verbose line = true) :
    isMessage line = false := by
  rcases Bool.or_eq_true_iff.mp aside with echoed | traced
  · exact isMessage_of_begins echoed rfl (by decide)
  · rcases Bool.or_eq_true_iff.mp (Bool.and_eq_true_iff.mp traced).2 with stars | name
    · exact isMessage_of_begins stars rfl (by decide)
    · exact isMessage_of_begins name rfl (by decide)

/-- The summary of more than one error begins with a digit. -/
theorem head?_summary (errors : Nat) :
    ∃ first, (summary (errors + 2)).toList.head? = some first ∧ first.isDigit = true := by
  have digits : (toString (errors + 2)).toList = Nat.toDigits 10 (errors + 2) := by
    rw [Text.toString_nat, String.toList_ofList]
  cases same : Nat.toDigits 10 (errors + 2) with
  | nil => exact absurd same Nat.toDigits_ne_nil
  | cons first rest =>
    have member : first ∈ Nat.toDigits 10 (errors + 2) := by
      rw [same]
      exact List.mem_cons_self
    refine ⟨first, ?_, Nat.isDigit_of_mem_toDigits (by decide) (by decide) member⟩
    have parts : summary (errors + 2) = toString (errors + 2) ++ " errors reported" := rfl
    rw [parts, String.toList_append, digits, same]
    rfl

theorem isAside_summary (verbose : Bool) (errors : Nat) : isAside verbose (summary errors) = false := by
  match errors with
  | 0 | 1 => cases verbose <;> decide
  | errors + 2 =>
    obtain ⟨first, opens, digit⟩ := head?_summary errors
    refine isAside_of_head verbose opens fun member => ?_
    simp only [List.mem_cons, List.not_mem_nil, or_false] at member
    obtain rfl | rfl | rfl := member
    all_goals cases digit

theorem isMessage_summary (errors : Nat) : isMessage (summary errors) = false := by
  match errors with
  | 0 | 1 => decide
  | errors + 2 =>
    obtain ⟨first, opens, digit⟩ := head?_summary errors
    refine isMessage_of_head fun blank => ?_
    rw [opens] at blank
    cases blank
    cases digit

/-- The message that an event reports, with its indentation. -/
def Event.message? : Event → Option String
  | .reported spot diagnostic => some (marked spot.column diagnostic.message)
  | _ => none

/-- The messages of a journal, the earliest first. -/
def Journal.messages (journal : Journal) : List String :=
  journal.reverse.filterMap Event.message?

/-- An event writes its message last, and nothing else but asides. -/
theorem Event.Worded.asides {event : Event} (worded : event.Worded) (verbose : Bool) :
    ∃ asides, event.diagnosticLines verbose = asides ++ event.message?.toList ∧
      ∀ line ∈ asides, isAside verbose line = true := by
  cases event with
  | reported spot diagnostic =>
    refine ⟨_, rfl, fun line above => ?_⟩
    cases same : spot.text with
    | none =>
      rw [same] at above
      cases above
    | some text =>
      rw [same] at above
      cases verbose with
      | true => cases above
      | false =>
        cases List.mem_singleton.mp above
        exact isAside_of_isEcho false (isEcho_echo _ _)
  | noted | summarized => exact worded.elim
  | lineRead number text =>
    cases verbose with
    | false => exact ⟨[], rfl, List.forall_mem_nil _⟩
    | true => exact ⟨[_], rfl, List.forall_mem_singleton.mpr (isAside_of_isEcho true (isEcho_echo _ _))⟩
  | scopeOpened level =>
    cases verbose with
    | false => exact ⟨[], rfl, List.forall_mem_nil _⟩
    | true =>
      have stars : begins "***" ("*** Entered level " ++ toString level) = true := begins_append (by decide) _
      exact ⟨[_], rfl, List.forall_mem_singleton.mpr (isAside_of_stars stars)⟩
  | scopeClosed level entries =>
    cases verbose with
    | false => exact ⟨[], rfl, List.forall_mem_nil _⟩
    | true =>
      refine ⟨_, (List.append_nil _).symm, ?_⟩
      have first : begins "***" ("*** Symbol table for level " ++ toString level) = true :=
        begins_append (by decide) _
      have last : begins "***" ("*** Exited level " ++ toString level) = true := begins_append (by decide) _
      refine List.forall_mem_cons.mpr ⟨isAside_of_stars first, List.forall_mem_append.mpr ⟨?_, ?_⟩⟩
      · intro line member
        obtain ⟨entry, _, rfl⟩ := List.mem_map.mp member
        rw [isAside, entry.isTrace_description, Bool.and_self, Bool.or_true]
      · exact List.forall_mem_singleton.mpr (isAside_of_stars last)
  | _ => exact ⟨[], rfl, List.forall_mem_nil _⟩

/-- Whatever tells messages from asides finds the message of an event. -/
theorem Event.Worded.filter_lines {event : Event} {verbose : Bool} {chosen : String → Bool}
    (worded : event.Worded) (aside : ∀ line, isAside verbose line = true → chosen line = false)
    (message : ∀ column text, chosen (marked column text) = true) :
    (event.diagnosticLines verbose).filter chosen = event.message?.toList := by
  obtain ⟨asides, lines, beside⟩ := worded.asides verbose
  have none : asides.filter chosen = [] := by
    refine List.filter_eq_nil_iff.mpr fun line member => ?_
    rw [aside line (beside line member)]
    exact Bool.false_ne_true
  have own : event.message?.toList.filter chosen = event.message?.toList := by
    refine List.filter_eq_self.mpr fun line member => ?_
    cases event with
    | reported spot diagnostic =>
      cases List.mem_singleton.mp member
      exact message _ _
    | _ => cases member
  rw [lines, List.filter_append, none, own, List.nil_append]

/-- Whatever tells the messages of a run from its asides finds the messages that are reported. -/
theorem Journal.filter_linesOn {journal : Journal} {verbose : Bool} {chosen : String → Bool}
    (worded : ∀ event ∈ journal, event.Worded)
    (aside : ∀ line, isAside verbose line = true → chosen line = false)
    (message : ∀ column text, chosen (marked column text) = true) :
    (journal.linesOn verbose .diagnostics).filter chosen = journal.messages := by
  induction journal with
  | nil => rfl
  | cons event journal ih =>
    obtain ⟨first, older⟩ := List.forall_mem_cons.mp worded
    have own : (event.linesOn verbose .diagnostics).filter chosen = event.message?.toList :=
      first.filter_lines aside message
    rw [linesOn_cons, List.filter_append, ih older, own, messages, messages, List.reverse_cons,
      List.filterMap_append]
    cases same : event.message? <;> simp [same]

namespace Compilation

variable (source : String)

/-- What a run has said before its summary. -/
def said : Journal :=
  let outcome := (ofSource source).outcome
  (outcome.rejection.map Event.aborted).toList ++ outcome.state.journal

/-- The line that sums a run up. -/
def last : String :=
  AdaFront.summary (ofSource source).outcome.state.journal.errors

theorem journal_eq : (ofSource source).journal =
    .summarized (ofSource source).outcome.state.journal.errors :: said source :=
  journal_ofSource source

theorem said_worded : ∀ event ∈ said source, event.Worded := by
  have lines : ∀ line ∈ Text.lines source, '\n' ∉ line.toList := fun _ => Text.notMem_of_mem_lines
  have reader : ((Reader.ofLines (Text.lines source)).log (.started (Text.lines source).length)).Worded :=
    (Reader.worded_ofLines lines).log trivial
  have start : (begin source).Worded := Analysis.worded_ofScanner (Reader.keeps_worded.next reader)
  have ended : (ofSource source).outcome.state.Worded := Analysis.steady_worded.run start
  refine List.forall_mem_append.mpr ⟨fun event member => ?_, ended.journal⟩
  obtain ⟨rejection, _, rfl⟩ := Option.map_eq_some_iff.mp (Option.mem_toList.mp member)
  trivial

theorem messages_eq : (ofSource source).journal.messages = (said source).messages := by
  rw [journal_eq, Journal.messages, List.reverse_cons, List.filterMap_append]
  exact List.append_nil _

/-- A verbose run ends in a banner and the summary, a quiet run in the summary. -/
theorem linesOn_diagnostics (verbose : Bool) :
    (ofSource source).journal.linesOn verbose .diagnostics =
      (said source).linesOn verbose .diagnostics ++
        ((if verbose then ["", "Compilation complete"] else []) ++ [last source]) := by
  rw [journal_eq, Journal.linesOn_cons]
  rfl

/-- The messages in the diagnostics are the reported ones, in a verbose run and in a quiet one. -/
theorem filter_isMessage (verbose : Bool) :
    ((ofSource source).journal.linesOn verbose .diagnostics).filter isMessage =
      (ofSource source).journal.messages := by
  have banner : (if verbose then ["", "Compilation complete"] else []).filter isMessage = [] := by
    cases verbose <;> decide
  have ending : [last source].filter isMessage = [] :=
    List.filter_cons_of_neg (Bool.eq_false_iff.mp (isMessage_summary _))
  rw [messages_eq, linesOn_diagnostics, List.filter_append, List.filter_append, banner, ending,
    Journal.filter_linesOn (said_worded source) (fun _ => isMessage_of_isAside) isMessage_marked]
  exact List.append_nil _

/-- Beside the asides stand the reported messages and the summary. -/
theorem filter_beside (verbose : Bool) :
    ((said source).linesOn verbose .diagnostics ++ [last source]).filter (fun line => !isAside verbose line) =
      (said source).messages ++ [last source] := by
  have aside (line : String) (beside : isAside verbose line = true) : (!isAside verbose line) = false := by
    rw [beside]
    rfl
  have message (column : Nat) (text : String) : (!isAside verbose (marked column text)) = true := by
    rw [isAside_marked]
    rfl
  have ending : [last source].filter (fun line => !isAside verbose line) = [last source] := by
    refine List.filter_cons_of_pos ?_
    rw [last, isAside_summary]
    rfl
  rw [List.filter_append, Journal.filter_linesOn (said_worded source) aside message, ending]

/-- What a run writes are lines. -/
theorem isLine_linesOn (verbose : Bool) :
    ∀ line ∈ (ofSource source).journal.linesOn verbose .diagnostics, IsLine line := by
  rw [linesOn_diagnostics]
  refine List.forall_mem_append.mpr ⟨fun line member => ?_, List.forall_mem_append.mpr ⟨?_, ?_⟩⟩
  · obtain ⟨event, inside, atEvent⟩ := List.mem_flatMap.mp member
    exact (said_worded source event (List.mem_reverse.mp inside)).isLine verbose _ line atEvent
  · have banner : ∀ line ∈ ["", "Compilation complete"], Text.Unbroken line := by decide
    cases verbose with
    | false => exact List.forall_mem_nil _
    | true => exact fun line member => (banner line member).isLine
  · exact List.forall_mem_singleton.mpr (unbroken_summary _).isLine

/-- The text of the diagnostics. -/
theorem bytes_diagnostics (verbose : Bool) :
    Text.bytes (Text.joined ((ofSource source).journal.linesOn verbose .diagnostics)) =
      ((ofSource source).delivery Sinks.reliable verbose).diagnostics.bytes := by
  rw [Text.bytes_joined]
  exact ((ofSource source).bytes_lossless verbose .diagnostics).symm

/-- The text that a sink gets falls into what has been written to it. -/
theorem exists_text (verbose : Bool) :
    ∃ text, Text.bytes text = ((ofSource source).delivery Sinks.reliable verbose).diagnostics.bytes ∧
      Text.lines text = (ofSource source).journal.linesOn verbose .diagnostics :=
  ⟨_, bytes_diagnostics source verbose, Text.lines_joined (isLine_linesOn source verbose)⟩

/-- There is a summary if the sinks do not fail. -/
theorem result_reliable (compilation : Compilation) (verbose : Bool) :
    compilation.result Sinks.reliable verbose = .ok compilation.summary := by
  have none (channel : Channel) : compilation.faults Sinks.reliable verbose channel = [] := by
    have reliable : Sinks.reliable.of channel = Sink.reliable := by cases channel <;> rfl
    rw [faults, reliable]
    exact Sink.faults_reliable _ _
  rw [result_eq, none, none]

end Compilation

namespace Analysis

/-- The wish for details does not touch a compilation. An analysis that writes as it goes ends in the same way
with it and without it, the summary and the output are the same, and both diagnostic texts have the same
messages, which are the reported ones. The verbose text without its echo, its trace and the banner of two
lines above the summary is the quiet text without its echo. -/
theorem compile_verbosity (source : String) :
    let start := Compilation.begin source
    let compilation := Compilation.ofSource source
    let outcome (verbose : Bool) : Outcome := (writing Sinks.reliable verbose Analysis.compilation start
      (start.journal.deliver Sinks.reliable verbose)).1
    let delivery (verbose : Bool) : Delivery := compilation.delivery Sinks.reliable verbose
    outcome true = compilation.outcome ∧ outcome false = compilation.outcome ∧
    compilation.result Sinks.reliable true = .ok compilation.summary ∧
    compilation.result Sinks.reliable false = .ok compilation.summary ∧
    (delivery true).output.bytes = (delivery false).output.bytes ∧
    ∃ loud quiet : String, Text.bytes loud = (delivery true).diagnostics.bytes ∧
      Text.bytes quiet = (delivery false).diagnostics.bytes ∧
      (Text.lines loud).filter isMessage = compilation.journal.messages ∧
      (Text.lines quiet).filter isMessage = compilation.journal.messages ∧
      ∃ before last, Text.lines loud = before ++ ["", "Compilation complete", last] ∧
        (before ++ [last]).filter (fun line => !(isEcho line || isTrace line)) =
          (Text.lines quiet).filter (fun line => !isEcho line) := by
  intro start compilation outcome delivery
  have ended (verbose : Bool) : outcome verbose = compilation.outcome :=
    congrArg Prod.fst (writing_eq Sinks.reliable verbose Analysis.compilation start)
  have output : (delivery true).output.bytes = (delivery false).output.bytes :=
    (compilation.bytes_lossless true .output).trans (compilation.bytes_lossless false .output).symm
  have quietly : (fun line => !isAside false line) = fun line => !isEcho line := by
    funext line
    rw [isAside, Bool.false_and, Bool.or_false]
  obtain ⟨loud, loudBytes, loudLines⟩ := Compilation.exists_text source true
  obtain ⟨quiet, quietBytes, quietLines⟩ := Compilation.exists_text source false
  refine ⟨ended true, ended false, compilation.result_reliable true, compilation.result_reliable false, output,
    loud, quiet, loudBytes, quietBytes, ?_, ?_, (Compilation.said source).linesOn true .diagnostics,
    Compilation.last source, ?_, ?_⟩
  · rw [loudLines]
    exact Compilation.filter_isMessage source true
  · rw [quietLines]
    exact Compilation.filter_isMessage source false
  · rw [loudLines]
    exact Compilation.linesOn_diagnostics source true
  · rw [quietLines, ← quietly, Compilation.linesOn_diagnostics]
    exact (Compilation.filter_beside source true).trans (Compilation.filter_beside source false).symm

end Analysis

end AdaFront
