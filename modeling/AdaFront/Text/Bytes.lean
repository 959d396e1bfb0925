namespace AdaFront.Text

/-- The bytes of a text in UTF-8. -/
def bytes (text : String) : List UInt8 :=
  text.toUTF8.data.toList

/-- The text of some bytes, if they are one. -/
def ofBytes? (bytes : List UInt8) : Option String :=
  String.fromUTF8? ⟨bytes.toArray⟩

/-- A line ends in a line feed. -/
def lineBytes (line : String) : List UInt8 :=
  bytes line ++ [10]

/-- The number of bytes that follow the first one of a character, and the range that the first of
those is in. -/
def continuation (first : UInt8) : Nat × UInt8 × UInt8 :=
  if first < 0xC2 then (0, 0x80, 0xBF)
  else if first < 0xE0 then (1, 0x80, 0xBF)
  else if first = 0xE0 then (2, 0xA0, 0xBF)
  else if first = 0xED then (2, 0x80, 0x9F)
  else if first < 0xF0 then (2, 0x80, 0xBF)
  else if first = 0xF0 then (3, 0x90, 0xBF)
  else if first < 0xF4 then (3, 0x80, 0xBF)
  else if first = 0xF4 then (3, 0x80, 0x8F)
  else (0, 0x80, 0xBF)

/-- How many of the bytes go on with a character that wants `count` more, the first in the range. -/
def continued (count : Nat) (low high : UInt8) : List UInt8 → Nat
  | [] => 0
  | byte :: rest =>
    if 0 < count ∧ low ≤ byte ∧ byte ≤ high then continued (count - 1) 0x80 0xBF rest + 1 else 0

/-- The text of some bytes, where each start of a character that is not completed is shown as one
replacement character. -/
def readable (bytes : List UInt8) : List String :=
  match bytes with
  | [] => []
  | first :: rest =>
    let (count, low, high) := continuation first
    let taken := continued count low high rest
    (ofBytes? (first :: rest.take taken)).getD "\ufffd" :: readable (rest.drop taken)
termination_by bytes.length
decreasing_by simp only [List.length_drop, List.length_cons]; omega

def readableText (bytes : List UInt8) : String :=
  (ofBytes? bytes).getD (String.join (readable bytes))

end AdaFront.Text
