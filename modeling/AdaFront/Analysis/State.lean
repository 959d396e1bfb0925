import AdaFront.Source.Feed

namespace AdaFront.Analysis

/-- What an analysis knows at some point of the program. -/
structure State where
  /-- The tokens from the current one on. -/
  feed : Feed
  table : Table
  /-- The value of the expression that was read last, if it is known. -/
  value : Option Int
  /-- The group of the names that were listed last, if one of them could be declared. -/
  group : Option GroupId
  journal : Journal
deriving DecidableEq, Repr, Inhabited

namespace State

/-- The scanner stands where the program begins. The outermost scope opens before its first token is
looked for. -/
def ofScanner (scanner : Scanner) : State :=
  let feed := scanner.feed
  { feed := feed
    table := Table.predefined
    value := none
    group := none
    journal := feed.journal ++ .scopeOpened Table.predefined.level :: scanner.reader.journal }

def token (state : State) : Token :=
  state.feed.token

def kind (state : State) : Kind :=
  state.token.kind

def log (state : State) (event : Event) : State :=
  { state with journal := event :: state.journal }

def report (state : State) (diagnostic : Diagnostic) : State :=
  state.log (.reported state.feed.spot diagnostic)

def advance (state : State) : State :=
  let feed := state.feed.advance
  { state with feed := feed, journal := feed.journal ++ state.journal }

/-- Passes over a token that may be left out. -/
def skip (state : State) (kind : Kind) : State :=
  if state.kind = kind then state.advance else state

/-- Declares the current identifier. A refusal is reported at the token behind it. -/
def declare (state : State) (role : Role) : State :=
  let after := state.advance
  match after.table.declare state.token.lexeme role with
  | .ok (_, table) => { after with table := table }
  | .error error => after.report (.name error)

/-- Declares the current identifier as one of a list. The first name that can be declared founds the
group of the list. -/
def declareListed (state : State) : State :=
  let after := state.advance
  let declared := match after.group with
    | some group => after.table.declareIn state.token.lexeme group
    | none => after.table.declare state.token.lexeme .unset
  match declared with
  | .ok (id, table) => { after with table := table, group := after.group.or (table.groupOf? id) }
  | .error error => after.report (.name error)

/-- Looks the current identifier up. That there is none is reported at the token behind it. -/
def find (state : State) : Option EntryId × State :=
  let after := state.advance
  match after.table.lookup state.token.lexeme with
  | .ok id => (some id, after)
  | .error error => (none, after.report (.name error))

/-- Reports a name whose role does not fit its use. A name that is not declared, or whose role is
still open, fits every use. -/
def check (state : State) (name : Option EntryId) (use : NameUse) : State :=
  match name.bind state.table.entry? with
  | some entry =>
    if entry.role = .unset ∨ entry.role ∈ use.roles then state
    else state.report (.roleMismatch use)
  | none => state

/-- The known value of a name, if it is an integer. -/
def valueOf (state : State) (name : Option EntryId) : Option Int :=
  ((name.bind state.table.entry?).bind Entry.value).bind Value.integer?

def setRole (state : State) (role : Role) : State :=
  match state.group with
  | some group => { state with table := state.table.setRole group role }
  | none => state

/-- Gives the names listed last the value of the expression, if it is known. -/
def setConstant (state : State) : State :=
  match state.group, state.value with
  | some group, some value =>
    { state with table := state.table.setValue group (some (.integer value)) }
  | _, _ => state

/-- Assigns the value of the expression to a variable and the names declared with it. An unknown
value makes theirs unknown. -/
def assign (state : State) (name : Option EntryId) : State :=
  match name.bind state.table.entry? with
  | some entry =>
    if entry.role ∈ NameUse.target.roles then
      { state with table := state.table.setValue entry.group (state.value.map .integer) }
    else state
  | none => state

def openScope (state : State) : State :=
  let table := state.table.enter
  { state with table := table }.log (.scopeOpened table.level)

def closeScope (state : State) : State :=
  match state.table.exit? with
  | none => state
  | some (frame, table) =>
    { state with table := table }.log
      (.scopeClosed state.table.level (state.table.entriesOf frame))

/-- Ends the journal with the number of its errors. -/
def summarize (state : State) : State :=
  state.log (.summarized state.journal.errors)

/-- The value of the expression is not known. -/
def forget (state : State) : State :=
  { state with value := none }

/-- The value of the current integer literal. -/
def literal (state : State) : State :=
  let value := literalValue state.token.lexeme
  let after := state.advance
  if inRange value then { after with value := some value }
  else (after.report .overflow).forget

/-- Computes an operation on the left operand and the value of the expression. -/
def combine (state : State) (operator : Operator) (left : Option Int) : State :=
  match left, state.value with
  | some left, some right =>
    match operator.fold left right with
    | .value value => { state with value := some value }
    | .unknown => state.forget
    | .divisionByZero => (state.report .divisionByZero).forget
    | .overflow => ((state.log (.overflowed left operator right)).report .overflow).forget
  | _, _ => state.forget

end State

end AdaFront.Analysis
