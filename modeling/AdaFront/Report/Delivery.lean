import AdaFront.Report.Lines
import AdaFront.Report.Record
import AdaFront.Report.Sink

namespace AdaFront

/-- One channel of a run: what happened to its lines, and the first failure that nobody has asked for
yet. -/
structure Outlet where
  history : History
  fault : Option String
deriving DecidableEq, Repr, Inhabited

namespace Outlet

def fresh : Outlet := ⟨History.empty, none⟩

def offer (sink : Sink) (outlet : Outlet) (line : String) : Outlet :=
  { history := Sink.offer sink outlet.history line
    fault := outlet.fault.or ((sink outlet.history line).map Fault.reason) }

def bytes (outlet : Outlet) : List UInt8 :=
  outlet.history.bytes

end Outlet

/-- The sinks of a run. -/
structure Sinks where
  diagnostics : Sink
  output : Sink

def Sinks.reliable : Sinks := ⟨Sink.reliable, Sink.reliable⟩

/-- What has been written of the events of a run. -/
structure Delivery where
  diagnostics : Outlet
  output : Outlet
  /-- What both sinks took, in the order of writing, the latest first. -/
  shown : List (List UInt8)
  /-- The log, the latest record first. -/
  records : List Record
  /-- The number of events that are written. -/
  events : Nat
deriving DecidableEq, Repr, Inhabited

namespace Delivery

def fresh : Delivery := ⟨Outlet.fresh, Outlet.fresh, [], [], 0⟩

def log (delivery : Delivery) (records : List Record) : Delivery :=
  { delivery with records := records.reverse ++ delivery.records }

/-- The record of a write that failed. -/
def faultRecords (origin : Origin) (subject : String) (fault : Option Fault) : List Record :=
  match fault with
  | some fault => [⟨.error, origin, "failed to write " ++ subject ++ ": " ++ fault.reason⟩]
  | none => []

/-- Offers a line to the sink of its channel. -/
def write (sinks : Sinks) (delivery : Delivery) (line : Channel × String) : Delivery :=
  match line with
  | (.diagnostics, text) =>
    let outlet := delivery.diagnostics
    { delivery with
      diagnostics := outlet.offer sinks.diagnostics text
      shown := Sink.accepted sinks.diagnostics outlet.history text :: delivery.shown }.log
      (faultRecords .reader "diagnostic" (sinks.diagnostics outlet.history text))
  | (.output, text) =>
    let outlet := delivery.output
    { delivery with
      output := outlet.offer sinks.output text
      shown := Sink.accepted sinks.output outlet.history text :: delivery.shown }.log
      (faultRecords .analysis "program output" (sinks.output outlet.history text))

/-- Writes what an event shows. Its log records come first. -/
def deliver (sinks : Sinks) (verbose : Bool) (delivery : Delivery) (event : Event) : Delivery :=
  let written := (event.lines verbose).foldl (write sinks) (delivery.log event.records)
  { written with events := delivery.events + 1 }

/-- Writes the events of a journal that are not written yet. -/
def update (sinks : Sinks) (verbose : Bool) (delivery : Delivery) (journal : Journal) : Delivery :=
  (journal.take (journal.length - delivery.events)).reverse.foldl (deliver sinks verbose) delivery

/-- All that both sinks took, in the order of writing. -/
def shownBytes (delivery : Delivery) : List UInt8 :=
  delivery.shown.reverse.flatten

/-- Hands over the first failure on the diagnostics and forgets it. -/
def takeFault (delivery : Delivery) : Option String × Delivery :=
  (delivery.diagnostics.fault,
    { delivery with diagnostics := { delivery.diagnostics with fault := none } })

/-- The log records at a threshold, the earliest first. -/
def recordsAt (limit : Severity) (delivery : Delivery) : List Record :=
  delivery.records.reverse.filter fun record => limit.shownAt record.severity

end Delivery

/-- Writes all events of a journal. -/
def Journal.deliver (journal : Journal) (sinks : Sinks) (verbose : Bool) : Delivery :=
  Delivery.fresh.update sinks verbose journal

end AdaFront
