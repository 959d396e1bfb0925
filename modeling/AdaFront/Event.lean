import AdaFront.Diagnostic
import AdaFront.Folding

namespace AdaFront

/-- Where reading stands: the line being read, if there is one, its number, and how many of its
characters have been read. -/
structure Spot where
  text : Option String
  number : Nat
  column : Nat
deriving DecidableEq, Repr, Inhabited

/-- What happens during a run. Everything a run shows, in log records, diagnostics and program
output, is a view of its events. -/
inductive Event where
  | started (lines : Nat)
  | lineRead (number : Nat) (text : String)
  | scanned (token : Token)
  | scopeOpened (level : Int)
  | scopeClosed (level : Int) (entries : List Entry)
  | reported (spot : Spot) (diagnostic : Diagnostic)
  | noted (text : String)
  | overflowed (left : Int) (operator : Operator) (right : Int)
  | printed (value : Int)
  | aborted (rejection : Rejection)
  | summarized (errors : Nat)
deriving DecidableEq, Repr, Inhabited

def Event.isReport : Event → Bool
  | .reported _ _ => true
  | _ => false

/-- The events of a run so far, the latest first. -/
abbrev Journal := List Event

def Journal.errors (journal : Journal) : Nat :=
  journal.countP Event.isReport

end AdaFront
