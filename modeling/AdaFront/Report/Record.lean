import AdaFront.Event

namespace AdaFront

/-- The severities of log records, the gravest first. -/
inductive Severity where
  | error | warn | info | debug | trace
deriving DecidableEq, Repr, Inhabited

namespace Severity

def rank : Severity → Nat
  | .error => 1
  | .warn => 2
  | .info => 3
  | .debug => 4
  | .trace => 5

def label : Severity → String
  | .error => "ERROR"
  | .warn => "WARN"
  | .info => "INFO"
  | .debug => "DEBUG"
  | .trace => "TRACE"

/-- Whether a log at the threshold `limit` shows records of the severity. -/
def shownAt (limit severity : Severity) : Bool :=
  severity.rank ≤ limit.rank

end Severity

/-- The part of the program that a record comes from. -/
inductive Origin where
  | program | reader | scanner | table | analysis | folding
deriving DecidableEq, Repr, Inhabited

def Origin.label : Origin → String
  | .program => "tinyada"
  | .reader => "tinyada::source"
  | .scanner => "tinyada::lexer"
  | .table => "tinyada::symbol_table"
  | .analysis => "tinyada::parser"
  | .folding => "tinyada::parser::expr"

/-- A line of the log. -/
structure Record where
  severity : Severity
  origin : Origin
  text : String
deriving DecidableEq, Repr, Inhabited

/-- A record as a line of a terminal. -/
def Record.description (record : Record) : String :=
  "[" ++ Text.padRight 5 record.severity.label ++ " " ++ record.origin.label ++ "] " ++ record.text

/-- A token with all its parts. -/
def Token.details (token : Token) : String :=
  "Token \x7b kind: " ++ token.kind.label ++ ", lexeme: " ++ Text.quotedText token.lexeme ++
    ", line: " ++ toString token.line ++ ", column: " ++ toString token.column ++ " \x7d"

/-- What an event leaves in the log. -/
def Event.records : Event → List Record
  | .started lines => [⟨.info, .program, "compiling " ++ toString lines ++ " lines"⟩]
  | .scanned token =>
    [⟨.trace, .scanner, "token " ++ token.kind.label ++ " " ++ Text.quotedText token.lexeme⟩]
  | .scopeOpened level => [⟨.debug, .table, "entered scope level " ++ toString level⟩]
  | .scopeClosed level entries =>
    ⟨.trace, .table, "symbol table for level " ++ toString level⟩ ::
      entries.map (fun entry => ⟨.trace, .table, "  " ++ entry.description⟩) ++
      [⟨.debug, .table, "exited scope level " ++ toString level⟩]
  | .overflowed left operator right =>
    [⟨.warn, .folding, "constant " ++ toString left ++ " " ++ operator.kind.description ++ " " ++
      toString right ++ " overflows"⟩]
  | .printed value => [⟨.info, .analysis, "print " ++ toString value⟩]
  | .aborted rejection =>
    [⟨.debug, .program,
      "compilation aborted at " ++ rejection.token.details ++ ": " ++ rejection.message⟩]
  | .lineRead _ _ | .reported _ _ | .noted _ | .summarized _ => []

end AdaFront
