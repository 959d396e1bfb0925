import AdaFront.Token.Kind

namespace AdaFront

/-- A lexeme with its kind. The position is where reading stood when the lexeme was complete, which
is one character past its end. -/
structure Token where
  kind : Kind
  lexeme : String
  line : Nat
  column : Nat
deriving DecidableEq, Repr, Inhabited

/-- A token as diagnostics name it. -/
def Token.description (token : Token) : String :=
  match token.kind with
  | .endOfInput => "end of input"
  | _ => "`" ++ token.lexeme ++ "`"

end AdaFront
