import AdaFront.Report.Lines
import AdaFront.Report.Sink

namespace AdaFront.Text

/-- A text without a line feed or a carriage return. -/
def Unbroken (text : String) : Prop :=
  '\n' ∉ text.toList ∧ '\x0d' ∉ text.toList

instance (text : String) : Decidable (Unbroken text) :=
  inferInstanceAs (Decidable (_ ∧ _))

theorem unbroken_append {one other : String} : Unbroken (one ++ other) ↔ Unbroken one ∧ Unbroken other := by
  simp only [Unbroken, String.toList_append, List.mem_append, not_or]
  constructor
  · rintro ⟨⟨feed, feed'⟩, back, back'⟩
    exact ⟨⟨feed, back⟩, feed', back'⟩
  · rintro ⟨⟨feed, back⟩, feed', back'⟩
    exact ⟨⟨feed, feed'⟩, back, back'⟩

/-- Characters of a class that has no line ends make no line ends. -/
theorem unbroken_ofList {chars : List Char} (inClass : Char → Bool) (feed : inClass '\n' = false)
    (back : inClass '\x0d' = false) (members : ∀ c ∈ chars, inClass c = true) :
    Unbroken (String.ofList chars) := by
  have apart {c : Char} (outside : inClass c = false) : c ∉ chars := by
    intro inside
    have member := members c inside
    rw [outside] at member
    cases member
  rw [Unbroken, String.toList_ofList]
  exact ⟨apart feed, apart back⟩

theorem unbroken_spaces (n : Nat) : Unbroken (spaces n) :=
  unbroken_ofList (· == ' ') rfl rfl fun _ member => beq_iff_eq.mpr (List.eq_of_mem_replicate member)

theorem unbroken_padRight {text : String} (unbroken : Unbroken text) (width : Nat) :
    Unbroken (padRight width text) :=
  unbroken_append.mpr ⟨unbroken, unbroken_spaces _⟩

theorem unbroken_padLeft {text : String} (unbroken : Unbroken text) (width : Nat) :
    Unbroken (padLeft width text) :=
  unbroken_append.mpr ⟨unbroken_spaces _, unbroken⟩

theorem toString_nat (n : Nat) : toString n = String.ofList (Nat.toDigits 10 n) :=
  Nat.repr_eq_ofList_toDigits

theorem toString_nat_inj {one other : Nat} : toString one = toString other ↔ one = other := by
  constructor
  · intro same
    rw [toString_nat, toString_nat, String.ofList_inj] at same
    rw [← Nat.ofDigitChars_ten_toDigits (n := one), same, Nat.ofDigitChars_ten_toDigits]
  · rintro rfl
    rfl

theorem unbroken_nat (n : Nat) : Unbroken (toString n) := by
  rw [toString_nat]
  exact unbroken_ofList Char.isDigit rfl rfl fun _ => Nat.isDigit_of_mem_toDigits (by decide) (by decide)

theorem unbroken_int (value : Int) : Unbroken (toString value) := by
  cases value with
  | ofNat n => exact unbroken_nat n
  | negSucc n => exact unbroken_append.mpr ⟨by decide, unbroken_nat (n + 1)⟩

theorem digitChar_of_mem_toDigits {base n : Nat} (large : 1 < base) {c : Char}
    (member : c ∈ Nat.toDigits base n) :
    ∃ digit, c = Nat.digitChar digit := by
  induction n using Nat.strongRecOn with
  | ind n ih =>
    rw [Nat.toDigits_eq_if large] at member
    by_cases small : n < base
    · rw [if_pos small, List.mem_singleton] at member
      exact ⟨n, member⟩
    · rw [if_neg small] at member
      rcases List.mem_append.mp member with higher | lowest
      · exact ih (n / base) (Nat.div_lt_self (by omega) large) higher
      · exact ⟨n % base, List.mem_singleton.mp lowest⟩

theorem unbroken_hexadecimal (n : Nat) : Unbroken (hexadecimal n) := by
  have apart {c : Char} (other : ∀ digit, Nat.digitChar digit ≠ c) : c ∉ (hexadecimal n).toList := by
    rw [hexadecimal, String.toList_ofList]
    intro member
    obtain ⟨digit, same⟩ := digitChar_of_mem_toDigits (by decide) member
    exact other digit same.symm
  exact ⟨apart fun _ => Nat.digitChar_ne _ rfl, apart fun _ => Nat.digitChar_ne _ rfl⟩

/-- A line end is escaped like everything that is hidden. -/
theorem unbroken_escaped (style : QuoteStyle) (c : Char) : Unbroken (escaped style c) := by
  unfold escaped
  split
  case h_6 | h_7 => split <;> decide
  case h_8 _ _ feed back _ _ _ =>
    split
    · exact unbroken_append.mpr ⟨unbroken_append.mpr ⟨by decide, unbroken_hexadecimal _⟩, by decide⟩
    · rw [Unbroken, String.toList_singleton]
      exact ⟨fun same => feed (List.mem_singleton.mp same).symm,
        fun same => back (List.mem_singleton.mp same).symm⟩
  all_goals decide

theorem unbroken_quotedCharacter (c : Char) : Unbroken (quotedCharacter c) :=
  unbroken_append.mpr ⟨unbroken_append.mpr ⟨by decide, unbroken_escaped _ c⟩, by decide⟩

/-- A text that is a line of each text in which a line feed stands before and behind it. -/
def IsLine (line : String) : Prop :=
  '\n' ∉ line.toList ∧ line.toList.getLast? ≠ some '\x0d'

theorem Unbroken.isLine {text : String} (unbroken : Unbroken text) : IsLine text :=
  ⟨unbroken.1, fun last => unbroken.2 (List.mem_of_getLast? last)⟩

theorem IsLine.append {before text : String} (unbroken : Unbroken before) (isLine : IsLine text) :
    IsLine (before ++ text) := by
  constructor
  · rw [String.toList_append, List.mem_append, not_or]
    exact ⟨unbroken.1, isLine.1⟩
  · intro last
    rw [String.toList_append, List.getLast?_append] at last
    rcases Option.or_eq_some_iff.mp last with inText | ⟨_, inBefore⟩
    · exact isLine.2 inText
    · exact unbroken.isLine.2 inBefore

/-- What is cut off at the end of a line are blanks, and no blank is left there. -/
theorem isLine_trimmedEnd {text : String} (feed : '\n' ∉ text.toList) : IsLine (trimmedEnd text) := by
  rw [IsLine, trimmedEnd, String.toList_ofList]
  constructor
  · rw [List.mem_reverse]
    intro member
    have inside := (List.dropWhile_suffix isBlank).mem member
    exact feed (List.mem_reverse.mp inside)
  · rw [List.getLast?_reverse]
    intro first
    have solid := List.head?_dropWhile_not isBlank text.toList.reverse
    rw [first] at solid
    exact absurd solid (by decide)

theorem notMem_linesFrom {pending rest : List Char} (feed : '\n' ∉ pending) :
    ∀ line ∈ linesFrom pending rest, '\n' ∉ line.toList := by
  induction rest generalizing pending with
  | nil =>
    rw [linesFrom]
    split
    · exact List.forall_mem_nil _
    · rw [List.forall_mem_singleton, String.toList_ofList, List.mem_reverse]
      exact feed
  | cons c rest ih =>
    rw [linesFrom]
    by_cases ends : c = '\n'
    · rw [if_pos ends]
      refine List.forall_mem_cons.mpr ⟨?_, ih (List.not_mem_nil)⟩
      rw [String.toList_ofList, withoutReturn]
      intro member
      refine feed (List.mem_reverse.mp ?_)
      split at member
      · exact List.dropLast_subset _ member
      · exact member
    · rw [if_neg ends]
      refine ih fun member => ?_
      rcases List.mem_cons.mp member with same | before
      · exact ends same.symm
      · exact feed before

/-- No line of a text has a line feed. -/
theorem notMem_of_mem_lines {text line : String} (member : line ∈ lines text) : '\n' ∉ line.toList :=
  notMem_linesFrom List.not_mem_nil line member

/-- The text of some lines. -/
def joined (lines : List String) : String :=
  String.join (lines.map (· ++ "\n"))

theorem toList_joined (lines : List String) :
    (joined lines).toList = lines.flatMap fun line => line.toList ++ ['\n'] := by
  rw [joined, String.toList_join, List.flatMap_map]
  simp only [String.toList_append]
  rfl

theorem linesFrom_append {line : List Char} (feed : '\n' ∉ line) (pending rest : List Char) :
    linesFrom pending (line ++ '\n' :: rest) =
      String.ofList (withoutReturn (pending.reverse ++ line)) :: linesFrom [] rest := by
  induction line generalizing pending with
  | nil =>
    rw [List.nil_append, linesFrom, if_pos rfl, List.append_nil]
  | cons c line ih =>
    have other : c ≠ '\n' := fun same => feed (List.mem_cons.mpr (Or.inl same.symm))
    have later : '\n' ∉ line := fun member => feed (List.mem_cons_of_mem _ member)
    rw [List.cons_append, linesFrom, if_neg other, ih later, List.reverse_cons, List.append_assoc,
      List.singleton_append]

/-- A text that is written line by line has the lines that are written. -/
theorem lines_joined {written : List String} (isLine : ∀ line ∈ written, IsLine line) :
    lines (joined written) = written := by
  rw [lines, toList_joined]
  induction written with
  | nil => rfl
  | cons line written ih =>
    obtain ⟨first, later⟩ := List.forall_mem_cons.mp isLine
    have whole : withoutReturn line.toList = line.toList := if_neg first.2
    rw [List.flatMap_cons, List.append_assoc, List.singleton_append, linesFrom_append first.1,
      List.reverse_nil, List.nil_append, whole, String.ofList_toList, ih later]

theorem bytes_append (one other : String) : bytes (one ++ other) = bytes one ++ bytes other := by
  rw [bytes, String.toUTF8, String.toByteArray_append, ByteArray.toList_data_append]
  rfl

theorem bytes_joined (lines : List String) : bytes (joined lines) = lines.flatMap lineBytes := by
  have whole (lines : List String) (before : String) :
      bytes ((lines.map (· ++ "\n")).foldl (· ++ ·) before) = bytes before ++ lines.flatMap lineBytes := by
    induction lines generalizing before with
    | nil => exact (List.append_nil _).symm
    | cons line lines ih =>
      have feed : bytes "\n" = [10] := by decide
      rw [List.map_cons, List.foldl_cons, ih, bytes_append, bytes_append, feed, List.flatMap_cons,
        List.append_assoc]
      rfl
  exact whole lines ""

end AdaFront.Text
