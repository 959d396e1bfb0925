import AdaFront.Text.Bytes

namespace AdaFront

/-- A write that fails: how many bytes of the line were taken before that, and why it failed. -/
structure Fault where
  taken : Nat
  reason : String
deriving DecidableEq, Repr, Inhabited

/-- What a sink was offered and what it took of it, the latest first. -/
structure History where
  offered : List String
  taken : List (List UInt8)
  failures : Nat
deriving DecidableEq, Repr, Inhabited

namespace History

def empty : History := ⟨[], [], 0⟩

/-- All bytes that were taken. -/
def bytes (history : History) : List UInt8 :=
  history.taken.reverse.flatten

/-- The number of bytes that were taken. -/
def size (history : History) : Nat :=
  history.bytes.length

end History

/-- How a sink treats a line after what it was offered before. A line without a fault is taken
whole. -/
abbrev Sink := History → String → Option Fault

namespace Sink

/-- A sink that takes everything. -/
def reliable : Sink := fun _ _ => none

/-- Why a sink that is down refuses a line, with the number of the refusal. -/
def down (count : Nat) : String :=
  "sink down " ++ toString count

/-- A sink that loses the first lines whole. -/
def losing (count : Nat) : Sink := fun history _ =>
  if history.offered.length < count then some ⟨0, down (history.failures + 1)⟩ else none

/-- A sink with room for so many bytes. -/
def holding (room : Nat) : Sink := fun history line =>
  if room < history.size + (Text.lineBytes line).length then
    some ⟨room - history.size, down (history.failures + 1)⟩
  else none

/-- The bytes that a sink takes of a line. -/
def accepted (sink : Sink) (history : History) (line : String) : List UInt8 :=
  match sink history line with
  | some fault => (Text.lineBytes line).take fault.taken
  | none => Text.lineBytes line

/-- Offers a line to a sink. -/
def offer (sink : Sink) (history : History) (line : String) : History :=
  { offered := line :: history.offered
    taken := accepted sink history line :: history.taken
    failures := history.failures + if (sink history line).isSome then 1 else 0 }

end Sink

end AdaFront
