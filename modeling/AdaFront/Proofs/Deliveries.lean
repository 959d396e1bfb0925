import AdaFront.Compilation
import AdaFront.Proofs.Actions

namespace AdaFront

namespace Sink

/-- The faults of a sink that is offered lines, one after another. -/
def faults (sink : Sink) (history : History) : List String → List Fault
  | [] => []
  | line :: lines => (sink history line).toList ++ faults sink (offer sink history line) lines

theorem faults_reliable (history : History) (lines : List String) : faults reliable history lines = [] := by
  induction lines generalizing history with
  | nil => rfl
  | cons line lines ih => exact ih _

/-- The sink takes what it has room for: a line that does not fit is cut where the room ends, and fails. -/
def HasRoom (sink : Sink) (room : Nat) : Prop :=
  ∀ history line, (sink history line).map Fault.taken =
    if room < history.size + (Text.lineBytes line).length then some (room - history.size) else none

/-- A sink with a fixed room is such a sink. -/
theorem holding_hasRoom (room : Nat) : HasRoom (holding room) room := by
  intro history line
  unfold holding
  split <;> rfl

theorem HasRoom.accepted_eq {sink : Sink} {room : Nat} (hasRoom : HasRoom sink room) (history : History)
    (line : String) : accepted sink history line = (Text.lineBytes line).take (room - history.size) := by
  have taken := hasRoom history line
  unfold accepted
  by_cases cut : room < history.size + (Text.lineBytes line).length
  · rw [if_pos cut] at taken
    obtain ⟨fault, failed, same⟩ := Option.map_eq_some_iff.mp taken
    rw [failed, ← same]
  · rw [if_neg cut] at taken
    have whole : (Text.lineBytes line).length ≤ room - history.size := by omega
    rw [Option.map_eq_none_iff.mp taken, List.take_of_length_le whole]

theorem bytes_offer (sink : Sink) (history : History) (line : String) :
    (offer sink history line).bytes = history.bytes ++ accepted sink history line := by
  simp [offer, History.bytes]

end Sink

namespace Outlet

theorem fault_foldl (sink : Sink) (lines : List String) (outlet : Outlet) :
    (lines.foldl (offer sink) outlet).fault =
      outlet.fault.or ((Sink.faults sink outlet.history lines).head?.map Fault.reason) := by
  induction lines generalizing outlet with
  | nil => exact (Option.or_none).symm
  | cons line lines ih =>
    rw [List.foldl_cons, ih, offer, Option.or_assoc, ← Option.map_or, Sink.faults, List.head?_append,
      Option.head?_toList]

theorem bytes_reliable (lines : List String) (outlet : Outlet) :
    (lines.foldl (offer Sink.reliable) outlet).bytes = outlet.bytes ++ lines.flatMap Text.lineBytes := by
  induction lines generalizing outlet with
  | nil => exact (List.append_nil _).symm
  | cons line lines ih =>
    have first : (offer Sink.reliable outlet line).bytes = outlet.bytes ++ Text.lineBytes line :=
      Sink.bytes_offer _ _ _
    rw [List.foldl_cons, ih, first, List.flatMap_cons, List.append_assoc]

/-- However the lines lie in it, the text that is taken ends where the room ends. -/
theorem bytes_hasRoom {sink : Sink} {room : Nat} (hasRoom : Sink.HasRoom sink room) (lines : List String)
    (outlet : Outlet) (fits : outlet.bytes.length ≤ room) :
    (lines.foldl (offer sink) outlet).bytes =
      (outlet.bytes ++ lines.flatMap Text.lineBytes).take room := by
  induction lines generalizing outlet with
  | nil => rw [List.foldl_nil, List.flatMap_nil, List.append_nil, List.take_of_length_le fits]
  | cons line lines ih =>
    have first : (offer sink outlet line).bytes = (outlet.bytes ++ Text.lineBytes line).take room := by
      have added : (offer sink outlet line).bytes =
          outlet.bytes ++ (Text.lineBytes line).take (room - outlet.bytes.length) :=
        (Sink.bytes_offer _ _ _).trans (congrArg _ (hasRoom.accepted_eq _ _))
      rw [added, List.take_append, List.take_of_length_le fits]
    have within : (offer sink outlet line).bytes.length ≤ room := by
      rw [first, List.length_take]
      omega
    have cut (before after : List UInt8) :
        (before.take room ++ after).take room = (before ++ after).take room := by
      by_cases short : before.length ≤ room
      · rw [List.take_of_length_le short]
      · have full : room ≤ (before.take room).length := by
          rw [List.length_take]
          omega
        rw [List.take_append_of_le_length full, List.take_append_of_le_length (by omega), List.take_take,
          Nat.min_self]
    rw [List.foldl_cons, ih _ within, first, cut, List.flatMap_cons, List.append_assoc]

end Outlet

namespace Journal

variable {sinks : Sinks} {verbose : Bool}

theorem events_delivers (events : List Event) (delivery : Delivery) :
    (events.foldl (Delivery.deliver sinks verbose) delivery).events = delivery.events + events.length := by
  induction events generalizing delivery with
  | nil => rfl
  | cons event events ih =>
    have first : (delivery.deliver sinks verbose event).events = delivery.events + 1 := rfl
    rw [List.foldl_cons, ih, first, List.length_cons]
    omega

/-- To write what has come to a journal is to write the journal from the beginning. -/
theorem update_deliver {older newer : Journal} (grown : older <:+ newer) :
    (older.deliver sinks verbose).update sinks verbose newer = newer.deliver sinks verbose := by
  obtain ⟨added, rfl⟩ := grown
  have written : (older.deliver sinks verbose).events = older.length := by
    rw [deliver_eq, events_delivers, List.length_reverse]
    exact Nat.zero_add _
  have left : (added ++ older).take ((added ++ older).length - older.length) = added := by
    have length : (added ++ older).length - older.length = added.length := by
      rw [List.length_append]
      omega
    rw [length, List.take_left]
  rw [Delivery.update, written, left, deliver_eq, deliver_eq, List.reverse_append, List.foldl_append]

end Journal

namespace Analysis

/-- What has happened stays in the journal. -/
theorem invariant_grown (journal : Journal) : Invariant fun state => journal <:+ state.journal where
  act action grown := by
    cases action with
    | advance => exact grown.trans (List.suffix_append _ _)
    | report | print | overflow => exact grown.trans (List.suffix_cons _ _)
    | _ => exact grown
  openScope grown := grown.trans (List.suffix_cons _ _)
  closeScope {state} grown := by
    unfold State.closeScope
    split
    · exact grown
    · exact grown.trans (List.suffix_cons _ _)

/-- Does the tasks one after another, and writes behind each of them what it has added to the journal. -/
def writing (sinks : Sinks) (verbose : Bool) (tasks : List Task) (state : State) (written : Delivery) :
    Outcome × Delivery :=
  match tasks with
  | [] => (⟨none, state⟩, written)
  | task :: later =>
    match _ : task.step state with
    | .go tasks after =>
      writing sinks verbose (tasks ++ later) after (written.update sinks verbose after.journal)
    | .stop rejection after => (⟨some rejection, after⟩, written.update sinks verbose after.journal)
termination_by 24 * state.left + weight tasks
decreasing_by
  have forward := Task.step_forward state task
  rw [‹task.step state = _›] at forward
  simp only [Step.Forward] at forward
  simp only [weight_append, weight_cons]
  omega

/-- Neither the sinks nor the wish for details touch a run that writes, and it writes what its journal says. -/
theorem writing_eq (sinks : Sinks) (verbose : Bool) (tasks : List Task) (state : State) :
    writing sinks verbose tasks state (state.journal.deliver sinks verbose) =
      (run tasks state, (run tasks state).state.journal.deliver sinks verbose) := by
  have written (task : Task) (state : State) :
      (state.journal.deliver sinks verbose).update sinks verbose (task.step state).state.journal =
        (task.step state).state.journal.deliver sinks verbose :=
    Journal.update_deliver ((invariant_grown state.journal).step task List.suffix_rfl)
  induction tasks, state using run_induction with
  | ended state => rw [writing.eq_def, run_nil]
  | go task tasks later state after step ih =>
    have rest := written task state
    rw [step] at rest
    rw [writing.eq_def, run_go step]
    dsimp only
    split
    next _ _ same =>
      obtain ⟨rfl, rfl⟩ := Step.go.inj (step.symm.trans same)
      exact (congrArg _ rest).trans ih
    next _ _ same => cases step.symm.trans same
  | stop task later rejection state after step =>
    have rest := written task state
    rw [step] at rest
    rw [writing.eq_def, run_stop step]
    dsimp only
    split
    next _ _ same => cases step.symm.trans same
    next _ _ same =>
      obtain ⟨rfl, rfl⟩ := Step.stop.inj (step.symm.trans same)
      exact congrArg _ rest

end Analysis

namespace Compilation

/-- Where the analysis of a source begins. -/
def begin (source : String) : Analysis.State :=
  let lines := Text.lines source
  .ofScanner (.ofReader ((Reader.ofLines lines).log (.started lines.length)))

/-- Behind what the analysis leaves in the journal stand its rejection, if there is one, and the number of
the errors. -/
theorem journal_ofSource (source : String) :
    let outcome := (ofSource source).outcome
    (ofSource source).journal = .summarized outcome.state.journal.errors ::
      ((outcome.rejection.map Event.aborted).toList ++ outcome.state.journal) := by
  unfold ofSource
  dsimp only
  cases (Analysis.compile _).rejection with
  | none => rfl
  | some rejection => 
    have silent (journal : Journal) : Journal.errors (.aborted rejection :: journal) = journal.errors :=
      List.countP_cons_of_neg Bool.false_ne_true
    dsimp only
    rw [silent]
    rfl

variable (compilation : Compilation) (sinks : Sinks) (verbose : Bool)

/-- The faults of a sink over the lines that a run offers to it. -/
def faults (channel : Channel) : List Fault :=
  Sink.faults (sinks.of channel) History.empty (compilation.journal.linesOn verbose channel)

/-- An outlet remembers the first fault of its sink. -/
theorem fault_outlet (channel : Channel) :
    ((compilation.delivery sinks verbose).outlet channel).fault =
      (compilation.faults sinks verbose channel).head?.map Fault.reason := by
  rw [delivery, Journal.outlet_deliver, Outlet.fault_foldl]
  exact Option.none_or

/-- The first fault on the diagnostics decides, or else the first one on the output. -/
theorem result_eq :
    compilation.result sinks verbose =
      match compilation.faults sinks verbose .diagnostics, compilation.faults sinks verbose .output with
      | first :: _, _ => .error (.diagnostics first.reason)
      | [], first :: _ => .error (.output first.reason)
      | [], [] => .ok compilation.summary := by
  have diagnostics := compilation.fault_outlet sinks verbose .diagnostics
  have output := compilation.fault_outlet sinks verbose .output
  have atDiagnostics : (compilation.delivery sinks verbose).outlet .diagnostics =
      (compilation.delivery sinks verbose).diagnostics := rfl
  have atOutput : (compilation.delivery sinks verbose).outlet .output =
      (compilation.delivery sinks verbose).output := rfl
  rw [atDiagnostics] at diagnostics
  rw [atOutput] at output
  unfold result
  dsimp only
  rw [diagnostics, output]
  cases compilation.faults sinks verbose .diagnostics with
  | cons first more => rfl
  | nil => cases compilation.faults sinks verbose .output <;> rfl

theorem bytes_lossless (channel : Channel) :
    ((compilation.delivery Sinks.reliable verbose).outlet channel).bytes =
      (compilation.journal.linesOn verbose channel).flatMap Text.lineBytes := by
  have reliable : Sinks.reliable.of channel = Sink.reliable := by cases channel <;> rfl
  rw [delivery, Journal.outlet_deliver, reliable, Outlet.bytes_reliable]
  rfl

end Compilation

namespace Analysis

/-- Sinks that fail change nothing but what they take themselves. An analysis that writes as it goes ends in
the same way whatever its sinks do, with the same table and the same errors, and each channel is offered the
same lines as with sinks that never fail. No failure is lost: there is a summary exactly if no line failed, and
otherwise the first failure is told, one among the diagnostics before one in the output. A sink with room for
so many bytes holds so many bytes of the text that a sink without faults gets. -/
theorem compile_delivers (source : String) (sinks : Sinks) (verbose : Bool) :
    let start := Compilation.begin source
    let compilation := Compilation.ofSource source
    let delivery := compilation.delivery sinks verbose
    let lossless := compilation.delivery Sinks.reliable verbose
    let faults (channel : Channel) : List Fault :=
      Sink.faults (sinks.of channel) History.empty (lossless.outlet channel).history.offered.reverse
    let answer := (compilation.result sinks verbose).mapError WriteError.message
    (∃ written, writing sinks verbose Analysis.compilation start (start.journal.deliver sinks verbose) =
        (compilation.outcome, written) ∧
      written.update sinks verbose compilation.journal = delivery) ∧
    (∀ channel, (delivery.outlet channel).history.offered = (lossless.outlet channel).history.offered) ∧
    (answer = .ok compilation.summary ↔ ∀ channel, faults channel = []) ∧
    (∀ first more, faults .diagnostics = first :: more →
      answer = .error ("failed to write diagnostics: " ++ first.reason)) ∧
    (∀ first more, faults .diagnostics = [] → faults .output = first :: more →
      answer = .error ("failed to write program output: " ++ first.reason)) ∧
    ∀ channel room, (sinks.of channel).HasRoom room →
      (delivery.outlet channel).bytes = (lossless.outlet channel).bytes.take room := by
  intro start compilation delivery lossless faults answer
  have offered (sinks : Sinks) (channel : Channel) :
      ((compilation.delivery sinks verbose).outlet channel).history.offered.reverse =
        compilation.journal.linesOn verbose channel :=
    compilation.journal.offered_outlet sinks verbose channel
  have same (channel : Channel) : faults channel = compilation.faults sinks verbose channel :=
    congrArg _ (offered Sinks.reliable channel)
  have result : answer = _ :=
    congrArg (Except.mapError WriteError.message) (compilation.result_eq sinks verbose)
  refine ⟨⟨_, writing_eq sinks verbose Analysis.compilation start, ?_⟩, fun channel => ?_, ?_,
    fun first more lost => ?_, fun first more nothing lost => ?_, fun channel room hasRoom => ?_⟩
  · have within : compilation.outcome.state.journal <:+ compilation.journal := by
      rw [Compilation.journal_ofSource source]
      exact (List.suffix_append _ _).trans (List.suffix_cons _ _)
    exact Journal.update_deliver within
  · have reversed := (offered sinks channel).trans (offered Sinks.reliable channel).symm
    exact List.reverse_inj.mp reversed
  · rw [result]
    constructor
    · intro clean channel
      rw [same]
      cases diagnostics : compilation.faults sinks verbose .diagnostics with
      | cons =>
        rw [diagnostics] at clean
        cases clean
      | nil =>
        cases output : compilation.faults sinks verbose .output with
        | cons =>
          rw [diagnostics, output] at clean
          cases clean
        | nil => cases channel <;> assumption
    · intro none
      rw [← same, ← same, none, none]
      rfl
  · rw [result, ← same, lost]
    rfl
  · rw [result, ← same, ← same, nothing, lost]
    rfl
  · have whole : (lossless.outlet channel).bytes =
        (compilation.journal.linesOn verbose channel).flatMap Text.lineBytes :=
      compilation.bytes_lossless verbose channel
    have taken : (delivery.outlet channel).bytes =
        ((compilation.journal.linesOn verbose channel).foldl (Outlet.offer (sinks.of channel))
          Outlet.fresh).bytes :=
      congrArg Outlet.bytes (compilation.journal.outlet_deliver sinks verbose channel)
    rw [taken, whole]
    exact Outlet.bytes_hasRoom hasRoom _ _ (Nat.zero_le room)

end Analysis

end AdaFront
