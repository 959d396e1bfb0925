import AdaFront.Analysis.State

namespace AdaFront.Analysis

/-- The two ways to join relations, which do not mix. -/
inductive Connective where
  | conjunction | disjunction
deriving DecidableEq, Repr, Inhabited

def Connective.kind : Connective → Kind
  | .conjunction => .kwAnd
  | .disjunction => .kwOr

/-- What is still to be done for a part of a program. A task looks at the current token only. The
tasks named `more` go on with a repetition or end it. -/
inductive Task where
  | accept (kind : Kind)
  | skip (kind : Kind)
  | declare (role : Role)
  | openScope
  | closeScope
  | closingName
  | formalPart
  | moreParameters
  | names
  | nextName
  | moreNames
  | setRole (role : Role)
  | typeName
  | declarations
  | typeDefinition
  | object
  | setConstant
  | index
  | moreIndices
  | statement
  | moreStatements
  | alternatives
  | exitCondition
  | assignOrCall (name : Option EntryId) (indexed : Bool)
  | assign (name : Option EntryId)
  | print
  | expression
  | logic
  | moreLogic (connective : Connective)
  | relation
  | comparison
  | simple
  | moreTerms
  | term
  | moreFactors
  | factor
  | exponent
  | primary
  | operand (name : Option EntryId) (indexed : Bool)
  | moreArguments
  | forget
  | combine (operator : Operator) (left : Option Int)
deriving DecidableEq, Repr, Inhabited

/-- A procedure behind its keyword. Its name belongs to the scope around it. -/
def subprogram : List Task :=
  [.declare .procedure, .openScope, .formalPart, .accept .kwIs, .declarations, .accept .kwBegin,
   .statement, .moreStatements, .accept .kwEnd, .closeScope, .closingName, .accept .semicolon]

/-- A whole program: one procedure and nothing behind it. -/
def compilation : List Task :=
  .accept .kwProcedure :: subprogram ++ [.accept .endOfInput, .closeScope]

def parameter : List Task :=
  [.names, .setRole .parameter, .accept .colon, .skip .kwIn, .skip .kwOut, .typeName]

/-- A range behind its keyword. -/
def range : List Task :=
  [.simple, .accept .dots, .simple]

/-- An index or argument list behind its opening parenthesis. -/
def arguments : List Task :=
  [.expression, .moreArguments, .accept .rightParen]

/-- The outcome of one task: the tasks that take its place, or the end of the analysis. -/
inductive Step where
  | go (tasks : List Task) (state : State)
  | stop (rejection : Rejection) (state : State)
deriving DecidableEq, Repr, Inhabited

/-- Does further tasks after those of the step. -/
def Step.before (step : Step) (later : List Task) : Step :=
  match step with
  | .go tasks state => .go (tasks ++ later) state
  | .stop rejection state => .stop rejection state

namespace State

def refuse (state : State) (obstacle : Obstacle) : Step :=
  let rejection := ⟨state.token, obstacle⟩
  .stop rejection (state.report (.rejected rejection))

/-- Goes on if the current token has the kind that the grammar asks for. -/
def require (state : State) (kind : Kind) (step : Step) : Step :=
  if state.kind = kind then step else state.refuse (.expected (.token kind))

/-- Passes over the current token if it has the kind, and goes on with the tasks. -/
def perhaps (state : State) (kind : Kind) (tasks : List Task) : Step :=
  if state.kind = kind then .go tasks state.advance else .go [] state

def nameStep (state : State) (use : NameUse) : Step :=
  let (name, after) := state.find
  .go [] (after.check name use)

/-- A name with the list in parentheses that may follow it; the last task learns about both. -/
def component (state : State) (last : Option EntryId → Bool → Task) : Step :=
  let (name, after) := state.find
  if after.kind = .leftParen then .go (arguments ++ [last name true]) after.advance
  else .go [last name false] after

def declarationStep (state : State) : Step :=
  match state.kind with
  | .kwType =>
    .go [.declare .type, .accept .kwIs, .typeDefinition, .accept .semicolon, .declarations]
      state.advance
  | .kwProcedure => .go (subprogram ++ [.declarations]) state.advance
  | .identifier =>
    .go [.moreNames, .accept .colon, .object, .accept .semicolon, .declarations]
      { state with group := none }.declareListed
  | _ => .go [] state

def typeDefinitionStep (state : State) : Step :=
  match state.kind with
  | .leftParen => .go [.names, .setRole .constant, .accept .rightParen] state.advance
  | .kwArray =>
    .go [.accept .leftParen, .index, .moreIndices, .accept .rightParen, .accept .kwOf, .typeName]
      state.advance
  | .kwRange => .go range state.advance
  | .identifier => state.nameStep .typeName
  | _ => state.refuse (.expected .typeDefinition)

def objectStep (state : State) : Step :=
  if state.kind = .kwConstant then
    .go [.accept .assign, .expression, .setConstant] (state.advance.setRole .constant)
  else .go [.typeDefinition] (state.setRole .variable)

def indexStep (state : State) : Step :=
  match state.kind with
  | .kwRange => .go range state.advance
  | .identifier => state.nameStep .typeName
  | _ => state.refuse (.expected .index)

def statementStep (state : State) : Step :=
  match state.kind with
  | .identifier => state.component .assignOrCall
  | .kwExit => .go [.exitCondition, .accept .semicolon] state.advance
  | .kwIf =>
    .go [.expression, .accept .kwThen, .statement, .moreStatements, .alternatives, .accept .kwEnd,
         .accept .kwIf, .accept .semicolon] state.advance
  | .kwNull => .go [.accept .semicolon] state.advance
  | .kwWhile =>
    .go [.expression, .accept .kwLoop, .statement, .moreStatements, .accept .kwEnd,
         .accept .kwLoop, .accept .semicolon] state.advance
  | .kwLoop =>
    .go [.statement, .moreStatements, .accept .kwEnd, .accept .kwLoop, .accept .semicolon]
      state.advance
  | .kwPrint =>
    .go [.accept .leftParen, .expression, .print, .accept .rightParen, .accept .semicolon]
      state.advance
  | _ => state.refuse (.expected .statement)

def moreStatementsStep (state : State) : Step :=
  match state.kind with
  | .identifier | .kwExit | .kwIf | .kwNull | .kwWhile | .kwLoop | .kwPrint =>
    state.statementStep.before [.moreStatements]
  | _ => .go [] state

def alternativesStep (state : State) : Step :=
  match state.kind with
  | .kwElsif =>
    .go [.expression, .accept .kwThen, .statement, .moreStatements, .alternatives] state.advance
  | .kwElse => .go [.statement, .moreStatements] state.advance
  | _ => .go [] state

/-- A name stands for an assignment or for a call. What is stored under an index leaves the value of
the name alone. -/
def assignOrCallStep (state : State) (name : Option EntryId) (indexed : Bool) : Step :=
  if state.kind = .assign then
    let tasks := if indexed then [.expression] else [.expression, .assign name]
    .go (tasks ++ [.accept .semicolon]) (state.check name .target).advance
  else .go [.accept .semicolon] (state.check name .call)

/-- Prints a value that is known. -/
def printStep (state : State) : Step :=
  match state.value with
  | some value => .go [] (state.log (.printed value))
  | none => state.refuse .illegalPrintOperand

/-- The first `and` or `or` decides which of the two may follow. -/
def logicStep (state : State) : Step :=
  match state.kind with
  | .kwAnd => .go [.relation, .moreLogic .conjunction] state.advance
  | .kwOr => .go [.relation, .moreLogic .disjunction] state.advance
  | _ => .go [] state

def moreLogicStep (state : State) (connective : Connective) : Step :=
  if state.kind = connective.kind then .go [.relation, .moreLogic connective] state.advance
  else .go [] state.forget

def comparisonStep (state : State) : Step :=
  match state.kind with
  | .equal | .unequal | .less | .lessEqual | .greater | .greaterEqual =>
    .go [.simple, .forget] state.advance
  | _ => .go [] state

/-- A sign belongs to the whole first term. -/
def simpleStep (state : State) : Step :=
  match state.kind with
  | .plus => .go [.term, .moreTerms] state.advance
  | .minus => .go [.term, .combine .subtract (some 0), .moreTerms] state.advance
  | _ => .go [.term, .moreTerms] state

def moreTermsStep (state : State) : Step :=
  match Operator.adding? state.kind with
  | some operator => .go [.term, .combine operator state.value, .moreTerms] state.advance
  | none => .go [] state

def moreFactorsStep (state : State) : Step :=
  match Operator.multiplying? state.kind with
  | some operator => .go [.factor, .combine operator state.value, .moreFactors] state.advance
  | none => .go [] state

def factorStep (state : State) : Step :=
  if state.kind = .kwNot then .go [.primary, .forget] state.advance
  else .go [.primary, .exponent] state

def primaryStep (state : State) : Step :=
  match state.kind with
  | .integer => .go [] state.literal
  | .leftParen => .go [.expression, .accept .rightParen] state.advance
  | .identifier => state.component .operand
  | _ => state.refuse (.expected .expression)

/-- The value of a name is known only if no list follows it. -/
def operandStep (state : State) (name : Option EntryId) (indexed : Bool) : Step :=
  let checked := state.check name .operand
  .go [] { checked with value := if indexed then none else checked.valueOf name }

end State

/-- One task, done at the current token. -/
def Task.step (state : State) : Task → Step
  | .accept kind => state.require kind (.go [] state.advance)
  | .skip kind => .go [] (state.skip kind)
  | .declare role => state.require .identifier (.go [] (state.declare role))
  | .openScope => .go [] state.openScope
  | .closeScope => .go [] state.closeScope
  | .closingName => if state.kind = .identifier then state.nameStep .call else .go [] state
  | .formalPart => state.perhaps .leftParen (parameter ++ [.moreParameters, .accept .rightParen])
  | .moreParameters => state.perhaps .semicolon (parameter ++ [.moreParameters])
  | .names =>
    state.require .identifier (.go [.moreNames] { state with group := none }.declareListed)
  | .nextName => state.require .identifier (.go [.moreNames] state.declareListed)
  | .moreNames => state.perhaps .comma [.nextName]
  | .setRole role => .go [] (state.setRole role)
  | .typeName => state.require .identifier (state.nameStep .typeName)
  | .declarations => state.declarationStep
  | .typeDefinition => state.typeDefinitionStep
  | .object => state.objectStep
  | .setConstant => .go [] state.setConstant
  | .index => state.indexStep
  | .moreIndices => state.perhaps .comma [.index, .moreIndices]
  | .statement => state.statementStep
  | .moreStatements => state.moreStatementsStep
  | .alternatives => state.alternativesStep
  | .exitCondition => state.perhaps .kwWhen [.expression]
  | .assignOrCall name indexed => state.assignOrCallStep name indexed
  | .assign name => .go [] (state.assign name)
  | .print => state.printStep
  | .expression => .go [.relation, .logic] state
  | .logic => state.logicStep
  | .moreLogic connective => state.moreLogicStep connective
  | .relation => .go [.simple, .comparison] state
  | .comparison => state.comparisonStep
  | .simple => state.simpleStep
  | .moreTerms => state.moreTermsStep
  | .term => .go [.factor, .moreFactors] state
  | .moreFactors => state.moreFactorsStep
  | .factor => state.factorStep
  | .exponent =>
    state.perhaps .power [.primary, .combine .power state.value]
  | .primary => state.primaryStep
  | .operand name indexed => state.operandStep name indexed
  | .moreArguments => state.perhaps .comma [.expression, .moreArguments]
  | .forget => .go [] state.forget
  | .combine operator left => .go [] (state.combine operator left)

end AdaFront.Analysis
