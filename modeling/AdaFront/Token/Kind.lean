import AdaFront.Text.Letter

namespace AdaFront

/-- The kinds of lexemes: keywords, operators and delimiters, integer literals, identifiers, and the
end of the input. -/
inductive Kind where
  | kwAnd | kwArray | kwBegin | kwConstant | kwElse | kwElsif | kwEnd | kwExit | kwIf | kwIn
  | kwIs | kwLoop | kwMod | kwNot | kwNull | kwOf | kwOr | kwOut | kwPrint | kwProcedure
  | kwRange | kwThen | kwType | kwWhen | kwWhile | assign | colon | comma | dots | equal | power
  | greater | greaterEqual | leftParen | less | lessEqual | minus | unequal | plus | rightParen
  | semicolon | slash | star | integer | identifier | endOfInput
deriving DecidableEq, Repr, Inhabited

namespace Kind

/-- The one spelling of a keyword, operator or delimiter. -/
def spelling? : Kind → Option String
  | .kwAnd => some "and"
  | .kwArray => some "array"
  | .kwBegin => some "begin"
  | .kwConstant => some "constant"
  | .kwElse => some "else"
  | .kwElsif => some "elsif"
  | .kwEnd => some "end"
  | .kwExit => some "exit"
  | .kwIf => some "if"
  | .kwIn => some "in"
  | .kwIs => some "is"
  | .kwLoop => some "loop"
  | .kwMod => some "mod"
  | .kwNot => some "not"
  | .kwNull => some "null"
  | .kwOf => some "of"
  | .kwOr => some "or"
  | .kwOut => some "out"
  | .kwPrint => some "print"
  | .kwProcedure => some "procedure"
  | .kwRange => some "range"
  | .kwThen => some "then"
  | .kwType => some "type"
  | .kwWhen => some "when"
  | .kwWhile => some "while"
  | .assign => some ":="
  | .colon => some ":"
  | .comma => some ","
  | .dots => some ".."
  | .equal => some "="
  | .power => some "**"
  | .greater => some ">"
  | .greaterEqual => some ">="
  | .leftParen => some "("
  | .less => some "<"
  | .lessEqual => some "<="
  | .minus => some "-"
  | .unequal => some "/="
  | .plus => some "+"
  | .rightParen => some ")"
  | .semicolon => some ";"
  | .slash => some "/"
  | .star => some "*"
  | .integer | .identifier | .endOfInput => none

/-- The name of a kind in log records. -/
def label : Kind → String
  | .kwAnd => "KAnd"
  | .kwArray => "KArray"
  | .kwBegin => "KBegin"
  | .kwConstant => "KConstant"
  | .kwElse => "KElse"
  | .kwElsif => "KElsif"
  | .kwEnd => "KEnd"
  | .kwExit => "KExit"
  | .kwIf => "KIf"
  | .kwIn => "KIn"
  | .kwIs => "KIs"
  | .kwLoop => "KLoop"
  | .kwMod => "KMod"
  | .kwNot => "KNot"
  | .kwNull => "KNull"
  | .kwOf => "KOf"
  | .kwOr => "KOr"
  | .kwOut => "KOut"
  | .kwPrint => "KPrint"
  | .kwProcedure => "KProcedure"
  | .kwRange => "KRange"
  | .kwThen => "KThen"
  | .kwType => "KType"
  | .kwWhen => "KWhen"
  | .kwWhile => "KWhile"
  | .assign => "Assign"
  | .colon => "Colon"
  | .comma => "Comma"
  | .dots => "DotDot"
  | .equal => "Equal"
  | .power => "Exponent"
  | .greater => "Greater"
  | .greaterEqual => "GreaterEq"
  | .leftParen => "LParen"
  | .less => "Lesser"
  | .lessEqual => "LesserEq"
  | .minus => "Minus"
  | .unequal => "NotEqual"
  | .plus => "Plus"
  | .rightParen => "RParen"
  | .semicolon => "Semicolon"
  | .slash => "Slash"
  | .star => "Star"
  | .integer => "Integer"
  | .identifier => "Identifier"
  | .endOfInput => "Eof"

def all : List Kind :=
  [.kwAnd, .kwArray, .kwBegin, .kwConstant, .kwElse, .kwElsif, .kwEnd, .kwExit, .kwIf, .kwIn,
   .kwIs, .kwLoop, .kwMod, .kwNot, .kwNull, .kwOf, .kwOr, .kwOut, .kwPrint, .kwProcedure,
   .kwRange, .kwThen, .kwType, .kwWhen, .kwWhile, .assign, .colon, .comma, .dots, .equal, .power,
   .greater, .greaterEqual, .leftParen, .less, .lessEqual, .minus, .unequal, .plus, .rightParen,
   .semicolon, .slash, .star, .integer, .identifier, .endOfInput]

theorem mem_all (kind : Kind) : kind ∈ all := by
  cases kind <;> decide

def ofSpelling? (text : String) : Option Kind :=
  all.find? fun kind => kind.spelling? == some text

def ofLabel? (text : String) : Option Kind :=
  all.find? fun kind => kind.label == text

/-- A keyword is a kind that is spelled like a word. -/
def isKeyword (kind : Kind) : Bool :=
  match kind.spelling? with
  | some text => text.toList.head?.any Text.isLetter
  | none => false

/-- A kind as diagnostics name it. -/
def description : Kind → String
  | .integer => "integer"
  | .identifier => "identifier"
  | .endOfInput => "end of input"
  | kind => "'" ++ kind.spelling?.getD "?" ++ "'"

end Kind

end AdaFront
