import AdaFront.Source.Scanner

namespace AdaFront

namespace Text

/-- What holds of the first 128 characters can be tried out. -/
theorem forall_ascii {P : Char → Prop} (each : ∀ code < 128, P (Char.ofNat code)) {c : Char}
    (small : c.toNat < 128) : P c := by
  have holds := each c.toNat small
  rwa [Char.ofNat_toNat] at holds

namespace Ranges

/-- No character is in ranges of both kinds. -/
def Apart (one other : Ranges) : Prop :=
  ∀ first ∈ one, ∀ second ∈ other, first.2 < second.1 ∨ second.2 < first.1

instance (one other : Ranges) : Decidable (Apart one other) :=
  inferInstanceAs (Decidable (∀ first ∈ one, ∀ second ∈ other, _ ∨ _))

theorem covers_iff {ranges : Ranges} {c : Char} :
    ranges.covers c = true ↔ ∃ range ∈ ranges, range.1 ≤ c.toNat ∧ c.toNat ≤ range.2 := by
  simp [covers]

theorem covers_eq_false_iff {ranges : Ranges} {c : Char} :
    ranges.covers c = false ↔ ∀ range ∈ ranges, c.toNat < range.1 ∨ range.2 < c.toNat := by
  rw [Bool.eq_false_iff, ne_eq, covers_iff, not_exists]
  refine forall_congr' fun range => ?_
  rw [not_and]
  refine imp_congr_right fun _ => ?_
  omega

theorem Apart.covers {one other : Ranges} {c : Char} (apart : Apart one other)
    (covered : one.covers c = true) : other.covers c = false := by
  obtain ⟨first, member, low, high⟩ := covers_iff.mp covered
  refine covers_eq_false_iff.mpr fun second member' => ?_
  have beside := apart first member second member'
  omega

end Ranges

theorem blank_letter_apart : Ranges.Apart blankRanges letterRanges := by decide +kernel

theorem blank_numeral_apart : Ranges.Apart blankRanges numeralRanges := by decide +kernel

/-- No blank is part of a word. -/
theorem isBlank_of_isWordCharacter {c : Char} (word : isWordCharacter c = true) : isBlank c = false := by
  by_cases small : c.toNat < 128
  · exact forall_ascii (P := fun c => isWordCharacter c = true → isBlank c = false) (by decide +kernel)
      small word
  · refine Bool.eq_false_iff.mpr fun blank => ?_
    have letter : isLetter c = false := by
      rw [isLetter, if_neg small]
      exact blank_letter_apart.covers blank
    have numeral : isNumeral c = false := by
      rw [isNumeral, if_neg small]
      exact blank_numeral_apart.covers blank
    rw [isWordCharacter, letter, numeral, Bool.or_false, Bool.or_false, beq_iff_eq] at word
    subst word
    exact small (by decide)

theorem small_of_isDigit {c : Char} (digit : c.isDigit = true) : c.toNat < 128 := by
  rw [Char.isDigit, Bool.and_eq_true, decide_eq_true_eq, decide_eq_true_eq] at digit
  exact Nat.lt_of_le_of_lt digit.2 (by decide)

theorem isWordCharacter_of_isDigit {c : Char} (digit : c.isDigit = true) : isWordCharacter c = true := by
  rw [isWordCharacter, isNumeral, if_pos (small_of_isDigit digit), digit, Bool.or_true]

/-- No digit begins a word. -/
theorem isLetter_of_isDigit {c : Char} (digit : c.isDigit = true) : isLetter c = false :=
  forall_ascii (P := fun c => c.isDigit = true → isLetter c = false) (by decide +kernel)
    (small_of_isDigit digit) digit

/-- A run in which neither the capitals nor the small letters are blanks or marks of the end. -/
def CaseRun.Solid (run : CaseRun) : Prop :=
  endOfText.toNat < (run.first : Int) + run.shift ∧ ∀ range ∈ blankRanges,
    (run.last < range.1 ∨ range.2 < run.first) ∧
      ((run.last : Int) + run.shift < range.1 ∨ (range.2 : Int) < run.first + run.shift)

instance (run : CaseRun) : Decidable run.Solid :=
  inferInstanceAs (Decidable (_ ∧ _))

theorem blankRanges_positive : ∀ range ∈ blankRanges, 0 < range.1 := by decide

theorem caseRuns_solid : ∀ run ∈ caseRuns, run.Solid := by decide +kernel

/-- Beyond the first 128 characters a character is its own small form, or it is a capital of a run. -/
theorem lower_capital {c : Char} (large : ¬c.toNat < 128) :
    lower c = c ∨ ∃ run ∈ caseRuns, run.covers c.toNat = true ∧
      ((lower c).toNat = (c.toNat + run.shift).toNat ∨ (lower c).toNat = 0) := by
  cases found : caseRuns.find? (·.covers c.toNat) with
  | none =>
    left
    rw [lower, if_neg large, found]
  | some run =>
    right
    have small : lower c = Char.ofNat (c.toNat + run.shift).toNat := by
      rw [lower, if_neg large, found]
    have covered := List.find?_some found
    refine ⟨run, List.mem_of_find?_eq_some found, covered, ?_⟩
    rw [small, Char.ofNat]
    by_cases valid : (c.toNat + run.shift).toNat.isValidChar
    · rw [dif_pos valid]
      exact Or.inl rfl
    · rw [dif_neg valid]
      exact Or.inr rfl

/-- Beyond the first 128 characters a character is its own small form, or neither of the two is a blank or a
mark of the end. -/
theorem lower_cases {c : Char} (large : ¬c.toNat < 128) :
    lower c = c ∨ isBlank c = false ∧ isBlank (lower c) = false ∧ lower c ≠ endOfText := by
  refine (lower_capital large).imp_right fun ⟨run, member, covered, code⟩ => ?_
  obtain ⟨mark, blanks⟩ := caseRuns_solid run member
  simp only [CaseRun.covers, Bool.and_eq_true, decide_eq_true_eq] at covered
  obtain ⟨⟨low, high⟩, _⟩ := covered
  refine ⟨?_, ?_, fun same => ?_⟩
  · refine Ranges.covers_eq_false_iff.mpr fun range member => ?_
    have beside := (blanks range member).1
    omega
  · refine Ranges.covers_eq_false_iff.mpr fun range member => ?_
    have beside := (blanks range member).2
    have positive := blankRanges_positive range member
    omega
  · rw [same] at code
    have three : endOfText.toNat = 3 := by decide
    omega

theorem isBlank_lower (c : Char) : isBlank (lower c) = isBlank c := by
  by_cases small : c.toNat < 128
  · exact forall_ascii (P := fun c => isBlank (lower c) = isBlank c) (by decide +kernel) small
  · rcases lower_cases small with same | ⟨solid, solid', _⟩
    · rw [same]
    · rw [solid, solid']

theorem lower_eq_endOfText_iff {c : Char} : lower c = endOfText ↔ c = endOfText := by
  by_cases small : c.toNat < 128
  · exact forall_ascii (P := fun c => lower c = endOfText ↔ c = endOfText) (by decide +kernel) small
  · rcases lower_cases small with same | ⟨_, _, other⟩
    · rw [same]
    · refine iff_of_false other fun same => small ?_
      rw [same]
      decide

/-- Small letters from `low` to `high`, every `step` code points, are no capitals of the run. -/
def CaseRun.misses (run : CaseRun) (low high step : Nat) : Bool :=
  high < run.first || run.last < low ||
    (low == high || step % run.step == 0) && (low - run.first) % run.step != 0

/-- No run has the small letters of a run among its capitals, and they are no capitals of the first 128
characters either. -/
def CaseRun.Settled (run : CaseRun) : Prop :=
  'Z'.toNat < (run.first : Int) + run.shift ∧
    (caseRuns.all (·.misses (run.first + run.shift).toNat (run.last + run.shift).toNat run.step)) = true

instance (run : CaseRun) : Decidable run.Settled :=
  inferInstanceAs (Decidable (_ ∧ _))

theorem caseRuns_settled : ∀ run ∈ caseRuns, run.Settled := by decide +kernel

theorem CaseRun.not_covers_of_misses {run : CaseRun} {low high step code : Nat}
    (misses : run.misses low high step = true) (lower : low ≤ code) (upper : code ≤ high)
    (onStep : step ∣ code - low) : run.covers code = false := by
  refine Bool.eq_false_iff.mpr fun covered => ?_
  simp only [CaseRun.misses, covers, Bool.or_eq_true, Bool.and_eq_true, decide_eq_true_eq, beq_iff_eq,
    bne_iff_ne] at misses covered
  obtain ⟨⟨first, last⟩, capital⟩ := covered
  rcases misses with (below | above) | ⟨steps, beside⟩
  · omega
  · omega
  · have inside : run.first ≤ low := by
      refine Nat.le_of_not_lt fun outside => beside ?_
      rw [Nat.sub_eq_zero_of_le (Nat.le_of_lt outside), Nat.zero_mod]
    have onStep : run.step ∣ code - low := by
      rcases steps with single | steps
      · rw [show code - low = 0 by omega]
        exact Nat.dvd_zero _
      · exact Nat.dvd_trans (Nat.dvd_of_mod_eq_zero steps) onStep
    have whole : code - run.first = code - low + (low - run.first) := by omega
    rw [whole, Nat.add_mod, Nat.mod_eq_zero_of_dvd onStep, Nat.zero_add, Nat.mod_mod] at capital
    exact beside capital

theorem lower_of_small {c : Char} (small : c.toNat < 128) (other : c.toNat = 0 ∨ 'Z'.toNat < c.toNat) :
    lower c = c :=
  forall_ascii (P := fun c => (c.toNat = 0 ∨ 'Z'.toNat < c.toNat) → lower c = c) (by decide +kernel) small other

/-- A small form is its own small form. -/
theorem lower_lower (c : Char) : lower (lower c) = lower c := by
  by_cases small : c.toNat < 128
  · exact forall_ascii (P := fun c => lower (lower c) = lower c) (by decide +kernel) small
  rcases lower_capital small with same | ⟨run, member, covered, code⟩
  · rw [same, same]
  obtain ⟨beyond, settled⟩ := caseRuns_settled run member
  simp only [CaseRun.covers, Bool.and_eq_true, decide_eq_true_eq, beq_iff_eq] at covered
  obtain ⟨⟨low, high⟩, onStep⟩ := covered
  have other : (lower c).toNat = 0 ∨ 'Z'.toNat < (lower c).toNat := by omega
  by_cases small' : (lower c).toNat < 128
  · exact lower_of_small small' other
  -- The small forms of the run are no capitals of any run, as has been tried out for each pair of runs.
  have none : caseRuns.find? (·.covers (lower c).toNat) = none := by
    refine List.find?_eq_none.mpr fun run' member' => ?_
    have misses := List.all_eq_true.mp settled run' member'
    rw [run'.not_covers_of_misses misses (by omega) (by omega) ?_]
    · exact Bool.false_ne_true
    · have same : (lower c).toNat - (run.first + run.shift).toNat = c.toNat - run.first := by omega
      rw [same]
      exact Nat.dvd_of_mod_eq_zero onStep
  rw [lower.eq_def (lower c), if_neg small', none]

end Text

end AdaFront
