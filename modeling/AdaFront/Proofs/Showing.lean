import AdaFront.Proofs.Leading
import AdaFront.Proofs.Lexing
import AdaFront.Report.Delivery

namespace AdaFront

/-- Unknown symbols are no matter of the program, whatever else is reported is. -/
def Diagnostic.ofProgram : Diagnostic → Bool
  | .unknownSymbol _ => false
  | _ => true

def Effect.diagnostic? : Effect → Option Diagnostic
  | .remark diagnostic => some diagnostic
  | .printed _ => none

def Effect.line? : Effect → Option String
  | .remark _ => none
  | .printed value => some (toString value)

/-- A journal reports and prints what the effects say, in their order. -/
structure Journal.Shows (journal : Journal) (effects : List Effect) : Prop where
  diagnostics :
    journal.diagnostics.filter Diagnostic.ofProgram = effects.filterMap Effect.diagnostic?
  output (sinks : Sinks) (verbose : Bool) :
    (journal.deliver sinks verbose).output.history.offered.reverse =
      effects.filterMap Effect.line?

/-- The sink of a channel. -/
def Sinks.of (sinks : Sinks) : Channel → Sink
  | .diagnostics => sinks.diagnostics
  | .output => sinks.output

def Delivery.outlet (delivery : Delivery) : Channel → Outlet
  | .diagnostics => delivery.diagnostics
  | .output => delivery.output

/-- What an event adds to a channel. -/
def Event.linesOn (verbose : Bool) (channel : Channel) (event : Event) : List String :=
  match channel with
  | .diagnostics => event.diagnosticLines verbose
  | .output => event.outputLines

/-- What the events of a journal add to a channel, in their order. -/
def Journal.linesOn (journal : Journal) (verbose : Bool) (channel : Channel) : List String :=
  journal.reverse.flatMap (Event.linesOn verbose channel)

theorem Journal.linesOn_cons (event : Event) (journal : Journal) (verbose : Bool) (channel : Channel) :
    linesOn (event :: journal) verbose channel =
      journal.linesOn verbose channel ++ event.linesOn verbose channel := by
  rw [linesOn, List.reverse_cons, List.flatMap_append, List.flatMap_singleton, linesOn]

namespace Delivery

variable (sinks : Sinks) (verbose : Bool) (channel : Channel)

theorem outlet_write (delivery : Delivery) (line : Channel × String) :
    (write sinks delivery line).outlet channel =
      (if line.1 = channel then [line.2] else []).foldl (Outlet.offer (sinks.of channel))
        (delivery.outlet channel) := by
  obtain ⟨other, text⟩ := line
  cases other <;> cases channel <;> rfl

theorem outlet_writes (lines : List (Channel × String)) (delivery : Delivery) :
    (lines.foldl (write sinks) delivery).outlet channel =
      ((lines.filter (·.1 = channel)).map Prod.snd).foldl (Outlet.offer (sinks.of channel))
        (delivery.outlet channel) := by
  induction lines generalizing delivery with
  | nil => rfl
  | cons line lines ih =>
    rw [List.foldl_cons, ih, outlet_write, List.filter_cons]
    by_cases same : line.1 = channel <;> simp [same]

theorem linesOn_eq (event : Event) :
    ((event.lines verbose).filter (·.1 = channel)).map Prod.snd = event.linesOn verbose channel := by
  have none (lines : List String) : lines.filter (fun _ => false) = [] :=
    List.filter_eq_nil_iff.mpr nofun
  have all (lines : List String) : lines.filter (fun _ => true) = lines :=
    List.filter_eq_self.mpr fun _ _ => rfl
  cases channel <;>
    simp [Event.lines, Event.linesOn, List.filter_append, List.filter_map, Function.comp_def, none, all]

/-- An event offers its lines to the sink of their channel, in order. -/
theorem outlet_deliver (delivery : Delivery) (event : Event) :
    (deliver sinks verbose delivery event).outlet channel =
      (event.linesOn verbose channel).foldl (Outlet.offer (sinks.of channel))
        (delivery.outlet channel) := by
  have logged : (delivery.log event.records).outlet channel = delivery.outlet channel := by
    cases channel <;> rfl
  have written : (deliver sinks verbose delivery event).outlet channel =
      ((event.lines verbose).foldl (write sinks) (delivery.log event.records)).outlet channel := by
    cases channel <;> rfl
  rw [written, outlet_writes, linesOn_eq, logged]

theorem outlet_delivers (events : List Event) (delivery : Delivery) :
    (events.foldl (deliver sinks verbose) delivery).outlet channel =
      (events.flatMap (Event.linesOn verbose channel)).foldl (Outlet.offer (sinks.of channel))
        (delivery.outlet channel) := by
  induction events generalizing delivery with
  | nil => rfl
  | cons event events ih =>
    rw [List.foldl_cons, ih, outlet_deliver, List.flatMap_cons, List.foldl_append]

end Delivery

theorem Outlet.offered_foldl (sink : Sink) (lines : List String) (outlet : Outlet) :
    (lines.foldl (offer sink) outlet).history.offered = lines.reverse ++ outlet.history.offered := by
  induction lines generalizing outlet with
  | nil => rfl
  | cons line lines ih =>
    rw [List.foldl_cons, ih, List.reverse_cons, List.append_assoc]
    rfl

namespace Journal

variable (journal : Journal) (sinks : Sinks) (verbose : Bool)

theorem deliver_eq :
    journal.deliver sinks verbose =
      journal.reverse.foldl (Delivery.deliver sinks verbose) Delivery.fresh := by
  have whole : journal.take (journal.length - Delivery.fresh.events) = journal :=
    List.take_length
  rw [deliver, Delivery.update, whole]

/-- What the sink of a channel is offered hangs on the lines for the channel alone. -/
theorem outlet_deliver (channel : Channel) :
    (journal.deliver sinks verbose).outlet channel =
      (journal.linesOn verbose channel).foldl (Outlet.offer (sinks.of channel)) Outlet.fresh := by
  have fresh : Delivery.fresh.outlet channel = Outlet.fresh := by cases channel <;> rfl
  rw [deliver_eq, Delivery.outlet_delivers, fresh, linesOn]

theorem offered_outlet (channel : Channel) :
    ((journal.deliver sinks verbose).outlet channel).history.offered.reverse =
      journal.linesOn verbose channel := by
  rw [outlet_deliver, Outlet.offered_foldl]
  exact (congrArg List.reverse (List.append_nil _)).trans (List.reverse_reverse _)

/-- What the sink of the output is offered hangs on the printed values alone. -/
theorem output_deliver :
    (journal.deliver sinks verbose).output =
      (journal.reverse.flatMap Event.outputLines).foldl (Outlet.offer sinks.output) Outlet.fresh :=
  journal.outlet_deliver sinks verbose .output

theorem offered_output :
    (journal.deliver sinks verbose).output.history.offered.reverse =
      journal.reverse.flatMap Event.outputLines :=
  journal.offered_outlet sinks verbose .output

theorem outputLines_effects :
    journal.reverse.flatMap Event.outputLines = journal.effects.filterMap Effect.line? := by
  induction journal with
  | nil => rfl
  | cons event journal ih =>
    rw [List.reverse_cons, List.flatMap_append, ih, effects_cons, List.filterMap_append]
    cases event with
    | reported spot diagnostic => cases diagnostic <;> rfl
    | _ => rfl

theorem diagnostics_effects :
    journal.diagnostics.filter Diagnostic.ofProgram =
      journal.effects.filterMap Effect.diagnostic? := by
  induction journal with
  | nil => rfl
  | cons event journal ih =>
    rw [diagnostics_cons, List.filter_append, ih, effects_cons, List.filterMap_append]
    cases event with
    | reported spot diagnostic => cases diagnostic <;> rfl
    | _ => rfl

theorem shows_effects : journal.Shows journal.effects :=
  ⟨journal.diagnostics_effects,
    fun sinks verbose => (journal.offered_output sinks verbose).trans journal.outputLines_effects⟩

end Journal

end AdaFront
