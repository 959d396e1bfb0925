import AdaFront.Text.Blank

namespace AdaFront.Text

/-- A line without the carriage return that belongs to its line feed. -/
def withoutReturn (line : List Char) : List Char :=
  if line.getLast? = some '\x0d' then line.dropLast else line

/-- The lines of a text, of which `pending` has been seen, last character first. A text that stops
without a line feed ends in one more line, in which a carriage return is an ordinary character. -/
def linesFrom (pending : List Char) : List Char → List String
  | [] => if pending.isEmpty then [] else [String.ofList pending.reverse]
  | c :: rest =>
    if c = '\n' then String.ofList (withoutReturn pending.reverse) :: linesFrom [] rest
    else linesFrom (c :: pending) rest

def lines (text : String) : List String :=
  linesFrom [] text.toList

/-- A text without the blanks at its end. -/
def trimmedEnd (text : String) : String :=
  String.ofList (text.toList.reverse.dropWhile isBlank).reverse

def spaces (n : Nat) : String :=
  String.ofList (List.replicate n ' ')

/-- A text filled up on the right to `width` characters. -/
def padRight (width : Nat) (text : String) : String :=
  text ++ spaces (width - text.length)

/-- A text filled up on the left to `width` characters. -/
def padLeft (width : Nat) (text : String) : String :=
  spaces (width - text.length) ++ text

end AdaFront.Text
