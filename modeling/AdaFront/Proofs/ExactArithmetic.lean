import Mathlib.Algebra.Ring.Parity
import Mathlib.Algebra.Ring.Int.Parity
import Mathlib.Data.Nat.Digits.Defs
import AdaFront.Proofs.Elaboration

namespace AdaFront

/-- An exact result, if 64 bits hold it. -/
def bounded (result : Int) : Option Int :=
  if -2 ^ 63 ≤ result ∧ result < 2 ^ 63 then some result else none

/-- The number that digits write to the base of ten, whatever its size. -/
def decimal (digits : String) : Nat :=
  Nat.ofDigits 10 (digits.toList.map fun digit => digit.toNat - '0'.toNat).reverse

namespace Operator

/-- The result of an operation on unbounded integers, if it has one. Division truncates toward zero, and
exponents are natural numbers of 32 bits. -/
def exact (left right : Int) : Operator → Option Int
  | .add => some (left + right)
  | .subtract => some (left - right)
  | .multiply => some (left * right)
  | .divide => if right = 0 then none else some (left.tdiv right)
  | .modulo => if right = 0 then none else some (left.tmod right)
  | .power => if 0 ≤ right ∧ right < 2 ^ 32 then some (left ^ right.toNat) else none

/-- The result of an operation on operands that are known. -/
def apply (operator : Operator) (left right : Option Int) : Option Int :=
  left.bind fun left => right.bind fun right => (operator.exact left right).bind bounded

/-- Known operands whose result is out of range. So is every power with an exponent beyond 32 bits. -/
def overflows (operator : Operator) (left right : Int) : Bool :=
  match operator.exact left right with
  | some result => (bounded result).isNone
  | none => operator = .power ∧ 2 ^ 32 ≤ right

/-- A division by zero, with or without its remainder. -/
def dividesByZero (operator : Operator) (right : Int) : Bool :=
  (operator = .divide ∨ operator = .modulo) ∧ right = 0

end Operator

/-- What the literals and the operations on known operands in an expression count for. -/
structure Weights where
  literal : String → Nat
  operation : Operator → Int → Int → Nat

namespace Weights

/-- An operation with an operand that is not known does not count. -/
def known (weights : Weights) (operator : Operator) (left right : Option Int) : Nat :=
  match left, right with
  | some left, some right => weights.operation operator left right
  | _, _ => 0

/-- Literals and operations that are out of range. -/
def overflows : Weights where
  literal digits := if 2 ^ 63 ≤ decimal digits then 1 else 0
  operation operator left right := if operator.overflows left right then 1 else 0

def zeroDivisions : Weights where
  literal _ := 0
  operation operator _ right := if operator.dividesByZero right then 1 else 0

end Weights

theorem inRange_iff (value : Int) : inRange value ↔ -2 ^ 63 ≤ value ∧ value < 2 ^ 63 := by
  simp only [inRange, Bool.and_eq_true, decide_eq_true_eq]
  omega

/-- The digits are read from left to right, and their number is the one that they write. -/
theorem literalValue_eq (digits : String) : literalValue digits = decimal digits := by
  rw [literalValue, decimal, Nat.coe_ofDigits, Nat.ofDigits_eq_foldr, List.foldr_reverse, List.foldl_map]
  refine congrArg (fun step => digits.toList.foldl step 0) ?_
  funext value digit
  exact Int.add_comm _ _

namespace Folded

theorem checked_eq (result : Int) :
    checked result = (bounded result).elim .overflow .value := by
  unfold checked bounded
  simp only [inRange_iff]
  split <;> rfl

theorem not_inRange_of_large {value : Int} (large : 2 ^ 64 ≤ value.natAbs) : ¬inRange value := by
  rw [inRange_iff]
  omega

/-- A base beyond -1, 0 and 1 doubles with every factor. -/
theorem not_inRange_pow {base : Int} {exponent : Nat} (two : 2 ≤ base.natAbs) (high : 64 ≤ exponent) :
    ¬inRange (base ^ exponent) := by
  refine not_inRange_of_large ?_
  rw [Int.natAbs_pow]
  calc 2 ^ 64 ≤ 2 ^ exponent := Nat.pow_le_pow_right (by decide) high
    _ ≤ base.natAbs ^ exponent := Nat.pow_le_pow_left two exponent

/-- The short cuts of a power come to the power. -/
theorem power_eq (base : Int) {exponent : Nat} (short : exponent < 2 ^ 32) :
    power base exponent = checked (base ^ exponent) := by
  have within : ¬exponent ≥ 0x100000000 := by omega
  rw [power, if_neg within]
  split
  next zero =>
    subst zero
    cases exponent with
    | zero => rfl
    | succ exponent => rw [Int.zero_pow (Nat.succ_ne_zero exponent), if_neg (Nat.succ_ne_zero exponent)]; rfl
  next notZero =>
  split
  next one => rw [one, Int.one_pow]; rfl
  next notOne =>
  split
  next negated =>
    rw [negated]
    split
    next even => rw [(Nat.even_iff.mpr even).neg_one_pow]; rfl
    next odd => rw [(Nat.odd_iff.mpr (Nat.mod_two_ne_zero.mp odd)).neg_one_pow]; rfl
  next notNegated =>
  split
  next => rfl
  next high =>
    have two : 2 ≤ base.natAbs := by omega
    rw [checked, if_neg (not_inRange_pow two (Nat.le_of_not_lt high))]

end Folded

namespace Operator

variable {operator : Operator} {left right result : Int}

/-- An operation with an exact result comes to it, unless it is out of range. -/
theorem fold_of_exact (some : operator.exact left right = some result) :
    operator.fold left right = .checked result := by
  cases operator with
  | add | subtract | multiply => exact congrArg Folded.checked (Option.some.inj some)
  | divide | modulo =>
    obtain ⟨divisor, same⟩ := Option.ite_none_left_eq_some.mp some
    rw [fold, if_neg divisor, Option.some.inj same]
  | power =>
    obtain ⟨⟨natural, short⟩, same⟩ := Option.ite_none_right_eq_some.mp some
    rw [fold, if_neg (Int.not_lt.mpr natural), Folded.power_eq left (by omega), Option.some.inj same]

/-- An operation without an exact result is a division by zero, or a power whose exponent is negative or
beyond 32 bits. -/
theorem fold_of_inexact (inexact : operator.exact left right = none) :
    operator.fold left right =
      if operator.dividesByZero right then .divisionByZero
      else if operator.overflows left right then .overflow else .unknown := by
  rw [overflows, inexact]
  cases operator with
  | add | subtract | multiply => cases inexact
  | divide | modulo =>
    have zero : right = 0 := by
      by_contra divisor
      rw [exact, if_neg divisor] at inexact
      cases inexact
    simp [fold, dividesByZero, zero]
  | power =>
    have beyond : ¬(0 ≤ right ∧ right < 2 ^ 32) := by
      intro within
      rw [exact, if_pos within] at inexact
      cases inexact
    rcases Int.lt_or_le right 0 with negative | natural
    · have low : ¬2 ^ 32 ≤ right := by omega
      simp only [fold, if_pos negative, dividesByZero, low]
      rfl
    · have high : 2 ^ 32 ≤ right := by omega
      have long : right.toNat ≥ 0x100000000 := by omega
      simp only [fold, if_neg (Int.not_lt.mpr natural), Folded.power, if_pos long, dividesByZero, high]
      rfl

theorem not_dividesByZero_of_exact (some : operator.exact left right = some result) :
    operator.dividesByZero right = false := by
  cases operator with
  | add | subtract | multiply | power => rfl
  | divide | modulo =>
    obtain ⟨divisor, _⟩ := Option.ite_none_left_eq_some.mp some
    simp [dividesByZero, divisor]

theorem overflows_of_exact (some : operator.exact left right = some result) :
    operator.overflows left right = (bounded result).isNone := by
  rw [overflows, some]

theorem not_overflows_of_dividesByZero (divides : operator.dividesByZero right) :
    operator.overflows left right = false := by
  obtain ⟨division, zero⟩ := of_decide_eq_true divides
  rcases division with rfl | rfl <;> simp [overflows, exact, zero]

/-- An operation on known operands, in terms of exact results. -/
theorem fold_eq (operator : Operator) (left right : Int) :
    operator.fold left right =
      match (operator.exact left right).bind bounded with
      | some value => .value value
      | none =>
        if operator.dividesByZero right then .divisionByZero
        else if operator.overflows left right then .overflow else .unknown := by
  cases exact : operator.exact left right with
  | none => exact fold_of_inexact exact
  | some result =>
    rw [fold_of_exact exact, Folded.checked_eq, not_dividesByZero_of_exact exact,
      overflows_of_exact exact, Option.bind_some]
    cases bounded result <;> rfl

theorem value_eq_apply (operator : Operator) (left right : Option Int) :
    operator.value left right = operator.apply left right := by
  cases left with
  | none => rfl
  | some left =>
    cases right with
    | none => rfl
    | some right =>
      dsimp only [value, apply, Option.bind_some]
      rw [fold_eq]
      cases (operator.exact left right).bind bounded with
      | some value => rfl
      | none =>
        cases operator.dividesByZero right with
        | true => rfl
        | false => cases operator.overflows left right <;> rfl

/-- What an operation reports is what it counts for. -/
theorem count_remarks (operator : Operator) (left right : Option Int) :
    (operator.remarks left right).count .overflow = Weights.overflows.known operator left right ∧
      (operator.remarks left right).count .divisionByZero =
        Weights.zeroDivisions.known operator left right := by
  cases left with
  | none => exact ⟨rfl, rfl⟩
  | some left =>
    cases right with
    | none => exact ⟨rfl, rfl⟩
    | some right =>
      dsimp only [remarks, Weights.known, Weights.overflows, Weights.zeroDivisions]
      rw [fold_eq]
      cases within : (operator.exact left right).bind bounded with
      | some value =>
        obtain ⟨result, exact, fits⟩ := Option.bind_eq_some_iff.mp within
        rw [overflows_of_exact exact, not_dividesByZero_of_exact exact, fits]
        exact ⟨rfl, rfl⟩
      | none =>
        cases divides : operator.dividesByZero right with
        | true => rw [not_overflows_of_dividesByZero divides]; exact ⟨rfl, rfl⟩
        | false => cases operator.overflows left right <;> exact ⟨rfl, rfl⟩

end Operator

theorem bounded_eq (value : Int) :
    (if inRange value then some value else none) = bounded value := by
  unfold bounded
  simp only [inRange_iff]

theorem negated_eq_apply (value : Option Int) :
    Operator.subtract.apply (some 0) value = value.bind fun value => bounded (-value) := by
  cases value with
  | none => rfl
  | some value => exact congrArg bounded (Int.zero_sub value)

end AdaFront
