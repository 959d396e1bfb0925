import AdaFront.Report.Lines
import AdaFront.Text.Bytes

namespace AdaFront.CommandLine

/-- A file that is open for writing. All its handles share the offset. -/
structure OpenFile where
  content : List UInt8
  offset : Nat
  within : offset ≤ content.length
deriving DecidableEq, Repr

namespace OpenFile

/-- A file that has just been created, new or over an old one. -/
def created : OpenFile :=
  ⟨[], 0, Nat.le_refl 0⟩

/-- Writes bytes in the place of those behind the offset and passes over them. -/
def write (file : OpenFile) (bytes : List UInt8) : OpenFile where
  content := file.content.take file.offset ++ bytes ++ file.content.drop (file.offset + bytes.length)
  offset := file.offset + bytes.length
  within := by
    have within := file.within
    simp only [List.length_append, List.length_take, List.length_drop]
    omega

end OpenFile

/-- The place of an open file among those of a run. -/
abbrev Handle := Nat

/-- Standard output and the files that are open. -/
structure Console where
  stdout : List UInt8
  opened : List OpenFile
deriving DecidableEq, Repr

namespace Console

def start : Console :=
  ⟨[], []⟩

def create (console : Console) : Handle × Console :=
  (console.opened.length, { console with opened := console.opened ++ [OpenFile.created] })

/-- A clone of a handle belongs to the same open file. -/
def clone (handle : Handle) : Handle :=
  handle

def content (console : Console) (handle : Handle) : List UInt8 :=
  (console.opened[handle]?.map OpenFile.content).getD []

end Console

/-- How many bytes standard output takes at once, by what it has taken before and what it is offered. It takes
something unless it is offered nothing, but it may take a line in pieces. -/
structure Intake where
  count : List UInt8 → List UInt8 → Nat
  positive (taken : List UInt8) {offered : List UInt8} : offered ≠ [] → 0 < count taken offered

/-- Takes everything at once. -/
def Intake.whole : Intake where
  count _ offered := offered.length
  positive _ _ := List.length_pos_iff.mpr

/-- A writer to standard output. What is taken there is written to the file of the handle, too. -/
structure Tee where
  mirror : Option Handle
deriving DecidableEq, Repr

namespace Tee

/-- Offers bytes once. The first part of the answer is what is left of them. -/
def write (intake : Intake) (tee : Tee) (console : Console) (offered : List UInt8) : List UInt8 × Console :=
  let count := intake.count console.stdout offered
  let taken := offered.take count
  (offered.drop count,
    { stdout := console.stdout ++ taken
      opened := match tee.mirror with
        | some handle => console.opened.modify handle (·.write taken)
        | none => console.opened })

theorem length_write (intake : Intake) (tee : Tee) (console : Console) {offered : List UInt8}
    (present : offered ≠ []) : (tee.write intake console offered).1.length < offered.length := by
  have positive := intake.positive console.stdout present
  have some := List.length_pos_iff.mpr present
  simp only [write, List.length_drop]
  omega

/-- Offers bytes until none are left. -/
def writeAll (intake : Intake) (tee : Tee) (console : Console) (offered : List UInt8) : Console :=
  if offered = [] then console
  else
    let answer := tee.write intake console offered
    tee.writeAll intake answer.2 answer.1
termination_by offered.length
decreasing_by exact length_write intake tee console ‹_›

end Tee

/-- The writers of a run, one for each channel. -/
structure Tees where
  diagnostics : Tee
  output : Tee
deriving DecidableEq, Repr

namespace Tees

/-- Both write to standard output. With an output file one of them has its handle and the other one a clone. -/
def sharing (mirror : Option Handle) : Tees :=
  ⟨⟨mirror⟩, ⟨mirror.map Console.clone⟩⟩

def of (tees : Tees) : Channel → Tee
  | .diagnostics => tees.diagnostics
  | .output => tees.output

/-- Writes a line through the writer of its channel. -/
def writeLine (intake : Intake) (tees : Tees) (console : Console) (line : Channel × String) : Console :=
  (tees.of line.1).writeAll intake console (Text.lineBytes line.2)

end Tees

end AdaFront.CommandLine
