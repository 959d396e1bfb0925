import AdaFront.Symbols.Table
import AdaFront.Text.Quoted
import AdaFront.Token.Basic

namespace AdaFront

/-- The positions in which a name is used, each of which asks for certain roles. -/
inductive NameUse where
  | typeName | target | operand | call
deriving DecidableEq, Repr, Inhabited

namespace NameUse

def roles : NameUse → List Role
  | .typeName => [.type]
  | .target => [.variable, .parameter]
  | .operand => [.variable, .parameter, .constant]
  | .call => [.procedure]

def description : NameUse → String
  | .typeName => "type name"
  | .target => "variable or parameter name"
  | .operand => "variable, parameter or constant name"
  | .call => "procedure name"

end NameUse

/-- What the grammar asks for at a place where the program goes on differently. -/
inductive Expectation where
  | token (kind : Kind)
  | typeDefinition
  | index
  | statement
  | expression
deriving DecidableEq, Repr, Inhabited

def Expectation.description : Expectation → String
  | .token kind => kind.description
  | .typeDefinition => "type definition"
  | .index => "index"
  | .statement => "statement"
  | .expression => "expression"

/-- Why an analysis cannot go on. -/
inductive Obstacle where
  | expected (expectation : Expectation)
  | illegalPrintOperand
deriving DecidableEq, Repr, Inhabited

/-- The end of an analysis that cannot go on, with the token it stands at. -/
structure Rejection where
  token : Token
  obstacle : Obstacle
deriving DecidableEq, Repr, Inhabited

def Rejection.message (rejection : Rejection) : String :=
  match rejection.obstacle with
  | .expected expectation =>
    expectation.description ++ " expected, got " ++ rejection.token.description
  | .illegalPrintOperand => "illegal print operand"

/-- The causes of error messages. A `remark` is one in the words of a caller. -/
inductive Diagnostic where
  | unknownSymbol (symbol : Char)
  | name (error : TableError)
  | roleMismatch (use : NameUse)
  | divisionByZero
  | overflow
  | rejected (rejection : Rejection)
  | remark (text : String)
deriving DecidableEq, Repr, Inhabited

def Diagnostic.message : Diagnostic → String
  | .unknownSymbol symbol => "unknown symbol " ++ Text.quotedCharacter symbol
  | .name error => error.message
  | .roleMismatch use => use.description ++ " expected"
  | .divisionByZero => "division by zero in constant expression"
  | .overflow => "integer overflow in constant expression"
  | .rejected rejection => rejection.message
  | .remark text => text

end AdaFront
