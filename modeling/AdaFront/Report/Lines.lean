import AdaFront.Event

namespace AdaFront

/-- The width of what stands before an echoed line with a number below 100. -/
def echoMargin : Nat := 4

def echo (number : Nat) (text : String) : String :=
  "#" ++ Text.padLeft 2 (toString number) ++ ": " ++ Text.trimmedEnd text

/-- An error message, marked below the character that was read last. -/
def marked (column : Nat) (message : String) : String :=
  Text.spaces (echoMargin + column) ++ "E: " ++ message

def summary : Nat → String
  | 0 => "No errors reported"
  | 1 => "1 error reported"
  | errors => toString errors ++ " errors reported"

/-- The two places that a run writes to. -/
inductive Channel where
  | diagnostics | output
deriving DecidableEq, Repr, Inhabited

/-- What an event adds to the diagnostics. A verbose run echoes each line when it is read; a quiet
run echoes the current line, if there is one, above each error. -/
def Event.diagnosticLines (verbose : Bool) : Event → List String
  | .lineRead number text => if verbose then [echo number text] else []
  | .reported spot diagnostic =>
    let above := match spot.text with
      | some text => if verbose then [] else [echo spot.number text]
      | none => []
    above ++ [marked spot.column diagnostic.message]
  | .noted text => if verbose then [text] else []
  | .scopeOpened level => if verbose then ["*** Entered level " ++ toString level] else []
  | .scopeClosed level entries =>
    if verbose then
      ("*** Symbol table for level " ++ toString level) :: entries.map Entry.description ++
        ["*** Exited level " ++ toString level]
    else []
  | .summarized errors =>
    (if verbose then ["", "Compilation complete"] else []) ++ [summary errors]
  | .started _ | .scanned _ | .overflowed _ _ _ | .printed _ | .aborted _ => []

/-- What an event adds to the output of the program. -/
def Event.outputLines : Event → List String
  | .printed value => [toString value]
  | _ => []

/-- All that an event writes, in order. -/
def Event.lines (verbose : Bool) (event : Event) : List (Channel × String) :=
  event.diagnosticLines verbose |>.map (Channel.diagnostics, ·)
    |>.append (event.outputLines.map (Channel.output, ·))

end AdaFront
