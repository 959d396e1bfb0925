import AdaFront.Compilation
import AdaFront.Proofs.Evaluation

namespace AdaFront

namespace Operator

/-- Whether a power is computed at all: its exponent has 32 bits, or it is out of range anyway. -/
def ComputesPower (base : Int) (exponent : Nat) : Prop :=
  exponent < 2 ^ 32 ∨ 1 < base.natAbs

/-- A power that is not computed is in range all the same, since it is -1, 0 or 1. -/
theorem pow_inRange_of_not_computes {base : Int} {exponent : Nat} (left : ¬ComputesPower base exponent) :
    inRange (base ^ exponent) := by
  have small : base.natAbs ≤ 1 := Nat.not_lt.mp fun large => left (Or.inr large)
  have bound : (base ^ exponent).natAbs ≤ 1 := by
    rw [Int.natAbs_pow]
    calc base.natAbs ^ exponent ≤ 1 ^ exponent := Nat.pow_le_pow_left small exponent
      _ = 1 := Nat.one_pow exponent
  rw [inRange_iff]
  omega

/-- A power has its value if that is in range and computed, and is an overflow otherwise. -/
theorem fold_power (base : Int) (exponent : Nat) :
    (inRange (base ^ exponent) ∧ ComputesPower base exponent →
      power.fold base exponent = .value (base ^ exponent)) ∧
    (¬(inRange (base ^ exponent) ∧ ComputesPower base exponent) →
      power.fold base exponent = .overflow) := by
  have folds : power.fold base exponent = Folded.power base exponent := by
    rw [fold, if_neg (by omega), Int.toNat_natCast]
  rw [folds]
  rcases Nat.lt_or_ge exponent (2 ^ 32) with short | beyond
  · rw [Folded.power_eq base short, Folded.checked]
    exact ⟨fun both => if_pos both.1, fun leaves => if_neg fun fits => leaves ⟨fits, Or.inl short⟩⟩
  · have stops : Folded.power base exponent = .overflow := by
      unfold Folded.power
      exact if_pos beyond
    refine ⟨fun both => absurd both.1 ?_, fun _ => stops⟩
    have large := both.2.resolve_left (Nat.not_lt.mpr beyond)
    exact Folded.not_inRange_pow large (by omega)

end Operator

namespace Analysis

open AdaFront.Tree (Lexeme)

/-- A power of operands with known values, read where it stands before a word that no factor goes on with. If the
exact power is in the range of 64 bits it is the value, and nothing is reported but what there is to say about the
operands; if it is out of range there is no value and one overflow is reported. Only the bases -1, 0 and 1 with
exponents beyond 32 bits are an exception: their powers are in range, and yet an overflow is reported. -/
theorem power_folds (scanner : Scanner) (predefines : Bool) (commands : List Table.Command)
    (value : Option Int) (group : Option GroupId) (journal : Journal) (base exponent : Tree.Primary)
    (next : Lexeme) (later : List Lexeme) (left : Int) (right : Nat)
    (upcoming : scanner.words = (Tree.Factor.power base exponent).yield ++ next :: later)
    (apart : next.1 ∉ Part.factorContinuations)
    (atBase : base.eval ((Table.initial predefines).performAll commands).integerOf = some left)
    (atExponent :
      exponent.eval ((Table.initial predefines).performAll commands).integerOf = some (right : Int)) :
    let table := (Table.initial predefines).performAll commands
    let outcome := run [.factor] ⟨scanner.feed, table, value, group, journal⟩
    let said := journal.effects ++
      (base.remarks table.scope ++ exponent.remarks table.scope).map Effect.remark
    let fits := -2 ^ 63 ≤ left ^ right ∧ left ^ right < 2 ^ 63
    let exceptional := 2 ^ 32 ≤ right ∧ (left = -1 ∨ left = 0 ∨ left = 1)
    outcome.rejection = none ∧ outcome.state.words = next :: later ∧
      outcome.state.table = table ∧ outcome.state.group = group ∧
      (fits ∧ ¬exceptional → outcome.state.value = some (left ^ right) ∧ outcome.state.effects = said) ∧
      (¬fits ∨ exceptional →
        outcome.state.value = none ∧ outcome.state.effects = said ++ [.remark .overflow]) ∧
      (exceptional → fits) ∧
      Diagnostic.overflow.message = "integer overflow in constant expression" := by
  intro table outcome said fits exceptional
  have linked : table.Linked := ((Table.initial_sound predefines).performAll commands).toLinked
  obtain ⟨rest, tokens, behind, kind⟩ := Feed.words_split (scanner.words_feed.trans upcoming)
  have ready : Ready table.scope ⟨scanner.feed, table, value, group, journal⟩ :=
    ⟨scanner.feed_searched, linked, rfl⟩
  obtain ⟨after, reach, leads, known⟩ :=
    (Tree.Factor.power base exponent).comes ready tokens (kind ▸ apart)
  have ends : outcome = ⟨none, after⟩ := reach.run_eq.trans (run_nil after)
  have words : after.words = next :: later :=
    (congrArg (· ++ [(Kind.endOfInput, "")]) leads.lexemes).trans behind.symm
  have effects := leads.effects
  rw [← table.values_scope, ← Tree.Primary.value_eq_eval] at atBase atExponent
  rw [Tree.Factor.value, atBase, atExponent, Operator.value] at known
  rw [Tree.Factor.remarks, atBase, atExponent, Operator.remarks, List.map_append, ← List.append_assoc]
    at effects
  have range : inRange (left ^ right) ↔ fits := inRange_iff _
  have computes : Operator.ComputesPower left right ↔ ¬exceptional := by
    unfold Operator.ComputesPower
    omega
  obtain ⟨computed, overflowing⟩ := Operator.fold_power left right
  rw [range, computes] at computed overflowing
  rw [ends]
  refine ⟨rfl, words, leads.table, leads.group, fun inside => ?_, fun outside => ?_, fun exception => ?_, rfl⟩
  · rw [computed inside] at known effects
    exact ⟨known, effects.trans (List.append_nil _)⟩
  · have failing : ¬(fits ∧ ¬exceptional) := fun ⟨inside, regular⟩ =>
      outside.elim (· inside) regular
    rw [overflowing failing] at known effects
    exact ⟨known, effects⟩
  · exact range.mp (Operator.pow_inRange_of_not_computes fun regular => computes.mp regular exception)

/-- `(-2) ** 63` is the least number of 64 bits. -/
theorem power_folds_least :
    let scanner := Scanner.ofReader (.ofLines ["(-2) ** 63;"])
    let outcome := run [.factor] ⟨scanner.feed, Table.initial true, none, none, []⟩
    outcome.state.words = [Tree.word .semicolon, (.endOfInput, "")] ∧
      outcome.state.value = some (-2 ^ 63) ∧ outcome.state.effects = [] := by
  intro scanner outcome
  let base : Tree.Primary :=
    .inParentheses (.relation (.simple (.term (some .minus) (.factor (.primary (.literal "2"))))))
  obtain ⟨_, words, _, _, folds, _⟩ :=
    power_folds scanner true [] none none [] base (.literal "63") (Tree.word .semicolon)
      [(.endOfInput, "")] (-2) 63 (by decide +kernel) (by decide) (by decide +kernel) (by decide +kernel)
  obtain ⟨value, effects⟩ := folds (by decide)
  exact ⟨words, value, effects⟩

/-- One to a power beyond 32 bits is one, and yet the program cannot print it. -/
theorem power_overflows_at_one :
    let compilation := Compilation.ofSource "procedure p is begin print(1 ** 4294967296); end;"
    (1 : Int) ^ 4294967296 = 1 ∧ compilation.journal.linesOn false .output = [] ∧
      compilation.journal.linesOn false .diagnostics =
        ["# 1: procedure p is begin print(1 ** 4294967296); end;",
          "                                                E: integer overflow in constant expression",
          "# 1: procedure p is begin print(1 ** 4294967296); end;",
          "                                                E: illegal print operand",
          "2 errors reported"] := by
  refine ⟨one_pow _, ?_⟩
  decide +kernel

end Analysis

end AdaFront
