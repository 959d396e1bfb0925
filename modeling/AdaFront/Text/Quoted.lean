import AdaFront.Text.Extender
import AdaFront.Text.Printable

namespace AdaFront.Text

/-- The quotes that get a backslash of their own when a text is quoted. -/
structure QuoteStyle where
  single : Bool
  double : Bool

/-- A character stands between single quotes, so only those are escaped in it. -/
def characterStyle : QuoteStyle := ⟨true, false⟩

/-- A text stands between double quotes, so only those are escaped in it. -/
def textStyle : QuoteStyle := ⟨false, true⟩

def hexadecimal (n : Nat) : String :=
  String.ofList (Nat.toDigits 16 n)

/-- A character of a quoted text. What cannot be shown by itself, because it is hidden or attaches
to its neighbour, is written as its code point. -/
def escaped (style : QuoteStyle) (c : Char) : String :=
  match c with
  | '\x00' => "\\0"
  | '\t' => "\\t"
  | '\n' => "\\n"
  | '\x0d' => "\\r"
  | '\\' => "\\\\"
  | '\x27' => if style.single then "\\'" else "'"
  | '\x22' => if style.double then "\\\"" else "\""
  | _ =>
    if isExtender c || !isPrintable c then "\\u\x7b" ++ hexadecimal c.toNat ++ "\x7d"
    else String.singleton c

def quotedCharacter (c : Char) : String :=
  "'" ++ escaped characterStyle c ++ "'"

def quotedText (text : String) : String :=
  "\"" ++ String.join (text.toList.map (escaped textStyle)) ++ "\""

end AdaFront.Text
