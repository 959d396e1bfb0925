import AdaFront.Analysis.Run
import AdaFront.Report.Delivery

namespace AdaFront

/-- How a compilation ended. -/
structure Summary where
  errors : Nat
  /-- An error stopped the analysis before the end of the input. -/
  aborted : Bool
deriving DecidableEq, Repr, Inhabited

def Summary.clean (summary : Summary) : Bool :=
  summary.errors == 0

/-- The channel that lost something, with the reason of its first loss. -/
inductive WriteError where
  | diagnostics (reason : String)
  | output (reason : String)
deriving DecidableEq, Repr, Inhabited

def WriteError.message : WriteError → String
  | .diagnostics reason => "failed to write diagnostics: " ++ reason
  | .output reason => "failed to write program output: " ++ reason

/-- The whole run over a source, from the count of its lines to the summary. What is written of it
depends on the sinks and on the wish for details; the run itself does not. -/
structure Compilation where
  outcome : Analysis.Outcome
  journal : Journal
deriving DecidableEq, Repr, Inhabited

namespace Compilation

def ofSource (source : String) : Compilation :=
  let lines := Text.lines source
  let reader := (Reader.ofLines lines).log (.started lines.length)
  let outcome := Analysis.compile (Analysis.State.ofScanner (Scanner.ofReader reader))
  let journal : Journal := match outcome.rejection with
    | some rejection => .aborted rejection :: outcome.state.journal
    | none => outcome.state.journal
  ⟨outcome, .summarized journal.errors :: journal⟩

def summary (compilation : Compilation) : Summary :=
  ⟨compilation.journal.errors, compilation.outcome.rejection.isSome⟩

/-- All lines that the run writes, each with its channel, in the order of writing. -/
def lines (compilation : Compilation) (verbose : Bool) : List (Channel × String) :=
  compilation.journal.reverse.flatMap (Event.lines verbose)

def delivery (compilation : Compilation) (sinks : Sinks) (verbose : Bool) : Delivery :=
  compilation.journal.deliver sinks verbose

/-- The summary, unless something could not be written. A loss among the diagnostics counts before
one in the output. -/
def result (compilation : Compilation) (sinks : Sinks) (verbose : Bool) :
    Except WriteError Summary :=
  let delivery := compilation.delivery sinks verbose
  match delivery.diagnostics.fault, delivery.output.fault with
  | some reason, _ => .error (.diagnostics reason)
  | none, some reason => .error (.output reason)
  | none, none => .ok compilation.summary

end Compilation

end AdaFront
