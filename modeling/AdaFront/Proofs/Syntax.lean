import AdaFront.Analysis.Task

namespace AdaFront.Tree

open Analysis (Connective)

/-- A token without its place. -/
abbrev Lexeme := Kind × String

/-- A keyword, operator or delimiter as a token. -/
def word (kind : Kind) : Lexeme := (kind, kind.spelling?.getD "")

def identifier (name : String) : Lexeme := (.identifier, name)

@[simp] theorem word_kind (kind : Kind) : (word kind).1 = kind := rfl

@[simp] theorem identifier_kind (name : String) : (identifier name).1 = .identifier := rfl

inductive Adding where
  | plus | minus
deriving DecidableEq, Repr, Inhabited

def Adding.kind : Adding → Kind
  | .plus => .plus
  | .minus => .minus

inductive Multiplying where
  | times | over | modulo
deriving DecidableEq, Repr, Inhabited

def Multiplying.kind : Multiplying → Kind
  | .times => .star
  | .over => .slash
  | .modulo => .kwMod

inductive Comparison where
  | equal | unequal | less | lessEqual | greater | greaterEqual
deriving DecidableEq, Repr, Inhabited

def Comparison.kind : Comparison → Kind
  | .equal => .equal
  | .unequal => .unequal
  | .less => .less
  | .lessEqual => .lessEqual
  | .greater => .greater
  | .greaterEqual => .greaterEqual

mutual

/-- Sums and products lean to the left, lists to the right. -/
inductive Expression where
  | relation (only : Relation)
  | joined (connective : Connective) (first second : Relation) (others : Relations)

/-- The relations behind the second one of an expression. -/
inductive Relations where
  | none
  | more (first : Relation) (others : Relations)

inductive Relation where
  | simple (only : Simple)
  | compared (comparison : Comparison) (left right : Simple)

inductive Simple where
  | term (sign : Option Adding) (only : Term)
  | sum (left : Simple) (operator : Adding) (right : Term)

inductive Term where
  | factor (only : Factor)
  | product (left : Term) (operator : Multiplying) (right : Factor)

inductive Factor where
  | primary (only : Primary)
  | negated (operand : Primary)
  | power (base exponent : Primary)

inductive Primary where
  | literal (digits : String)
  | name (name : Name)
  | inParentheses (inner : Expression)

inductive Name where
  | plain (name : String)
  | indexed (name : String) (arguments : Arguments)

inductive Arguments where
  | one (last : Expression)
  | more (first : Expression) (others : Arguments)

end

mutual

/-- The tokens of a tree from left to right. -/
def Expression.yield : Expression → List Lexeme
  | .relation only => only.yield
  | .joined connective first second others =>
    first.yield ++ word connective.kind :: second.yield ++ others.yield connective

def Relations.yield (connective : Connective) : Relations → List Lexeme
  | .none => []
  | .more first others => word connective.kind :: first.yield ++ others.yield connective

def Relation.yield : Relation → List Lexeme
  | .simple only => only.yield
  | .compared comparison left right => left.yield ++ word comparison.kind :: right.yield

def Simple.yield : Simple → List Lexeme
  | .term sign only => sign.toList.map (fun sign => word sign.kind) ++ only.yield
  | .sum left operator right => left.yield ++ word operator.kind :: right.yield

def Term.yield : Term → List Lexeme
  | .factor only => only.yield
  | .product left operator right => left.yield ++ word operator.kind :: right.yield

def Factor.yield : Factor → List Lexeme
  | .primary only => only.yield
  | .negated operand => word .kwNot :: operand.yield
  | .power base exponent => base.yield ++ word .power :: exponent.yield

def Primary.yield : Primary → List Lexeme
  | .literal digits => [(.integer, digits)]
  | .name name => name.yield
  | .inParentheses inner => word .leftParen :: inner.yield ++ [word .rightParen]

def Name.yield : Name → List Lexeme
  | .plain name => [identifier name]
  | .indexed name arguments =>
    identifier name :: word .leftParen :: arguments.yield ++ [word .rightParen]

def Arguments.yield : Arguments → List Lexeme
  | .one last => last.yield
  | .more first others => first.yield ++ word .comma :: others.yield

end

mutual

inductive Statement where
  | assignment (target : Name) (source : Expression)
  | call (name : Name)
  | conditional (condition : Expression) (body : Sequence) (others : Alternatives)
  | loop (condition : Option Expression) (body : Sequence)
  | exit (condition : Option Expression)
  | null
  | print (operand : Expression)

inductive Sequence where
  | one (last : Statement)
  | more (first : Statement) (others : Sequence)

/-- What follows the first branch of a conditional statement. -/
inductive Alternatives where
  | none
  | otherwise (body : Sequence)
  | elsif (condition : Expression) (body : Sequence) (others : Alternatives)

end

/-- A word with the expression behind it. -/
def guard (kind : Kind) : Option Expression → List Lexeme
  | none => []
  | some condition => word kind :: condition.yield

mutual

def Statement.yield : Statement → List Lexeme
  | .assignment target source => target.yield ++ word .assign :: source.yield ++ [word .semicolon]
  | .call name => name.yield ++ [word .semicolon]
  | .conditional condition body others =>
    word .kwIf :: condition.yield ++ word .kwThen :: body.yield ++ others.yield ++
      [word .kwEnd, word .kwIf, word .semicolon]
  | .loop condition body =>
    guard .kwWhile condition ++ word .kwLoop :: body.yield ++
      [word .kwEnd, word .kwLoop, word .semicolon]
  | .exit condition => word .kwExit :: guard .kwWhen condition ++ [word .semicolon]
  | .null => [word .kwNull, word .semicolon]
  | .print operand =>
    word .kwPrint :: word .leftParen :: operand.yield ++ [word .rightParen, word .semicolon]

def Sequence.yield : Sequence → List Lexeme
  | .one last => last.yield
  | .more first others => first.yield ++ others.yield

def Alternatives.yield : Alternatives → List Lexeme
  | .none => []
  | .otherwise body => word .kwElse :: body.yield
  | .elsif condition body others =>
    word .kwElsif :: condition.yield ++ word .kwThen :: body.yield ++ others.yield

end

/-- A list of identifiers. -/
structure Names where
  first : String
  others : List String
deriving DecidableEq, Repr, Inhabited

def Names.yield (names : Names) : List Lexeme :=
  identifier names.first :: names.others.flatMap fun name => [word .comma, identifier name]

inductive Index where
  | range (low high : Simple)
  | type (name : String)

def Index.yield : Index → List Lexeme
  | .range low high => word .kwRange :: low.yield ++ word .dots :: high.yield
  | .type name => [identifier name]

inductive TypeDefinition where
  | enumeration (names : Names)
  | array (first : Index) (others : List Index) (element : String)
  | range (low high : Simple)
  | type (name : String)

def TypeDefinition.yield : TypeDefinition → List Lexeme
  | .enumeration names => word .leftParen :: names.yield ++ [word .rightParen]
  | .array first others element =>
    word .kwArray :: word .leftParen :: first.yield ++
      (others.flatMap fun index => word .comma :: index.yield) ++
      [word .rightParen, word .kwOf, identifier element]
  | .range low high => word .kwRange :: low.yield ++ word .dots :: high.yield
  | .type name => [identifier name]

structure Parameter where
  names : Names
  /-- Whether the words `in` and `out` stand before the type. -/
  input : Bool
  output : Bool
  type : String
deriving DecidableEq, Repr, Inhabited

def Parameter.yield (parameter : Parameter) : List Lexeme :=
  parameter.names.yield ++ word .colon :: (if parameter.input then [word .kwIn] else []) ++
    (if parameter.output then [word .kwOut] else []) ++ [identifier parameter.type]

/-- The parameters of a procedure in parentheses, if it has any. -/
def formalPart : List Parameter → List Lexeme
  | [] => []
  | first :: others =>
    word .leftParen :: first.yield ++
      (others.flatMap fun parameter => word .semicolon :: parameter.yield) ++ [word .rightParen]

mutual

/-- A procedure. -/
inductive Subprogram where
  | mk (name : String) (parameters : List Parameter) (declarations : Declarations)
    (body : Sequence) (closing : Option String)

inductive Declarations where
  | none
  | type (name : String) (definition : TypeDefinition) (others : Declarations)
  | constant (names : Names) (source : Expression) (others : Declarations)
  | variable (names : Names) (definition : TypeDefinition) (others : Declarations)
  | subprogram (inner : Subprogram) (others : Declarations)

end

mutual

def Subprogram.yield : Subprogram → List Lexeme
  | .mk name parameters declarations body closing =>
    word .kwProcedure :: identifier name :: formalPart parameters ++ word .kwIs ::
      declarations.yield ++ word .kwBegin :: body.yield ++ word .kwEnd ::
      closing.toList.map identifier ++ [word .semicolon]

def Declarations.yield : Declarations → List Lexeme
  | .none => []
  | .type name definition others =>
    word .kwType :: identifier name :: word .kwIs :: definition.yield ++ word .semicolon ::
      others.yield
  | .constant names source others =>
    names.yield ++ word .colon :: word .kwConstant :: word .assign :: source.yield ++
      word .semicolon :: others.yield
  | .variable names definition others =>
    names.yield ++ word .colon :: definition.yield ++ word .semicolon :: others.yield
  | .subprogram inner others => inner.yield ++ others.yield

end

end AdaFront.Tree
