import AdaFront.Token.Kind

namespace AdaFront

/-- The operators that are computed when both operands are known. -/
inductive Operator where
  | add | subtract | multiply | divide | modulo | power
deriving DecidableEq, Repr, Inhabited

def Operator.kind : Operator → Kind
  | .add => .plus
  | .subtract => .minus
  | .multiply => .star
  | .divide => .slash
  | .modulo => .kwMod
  | .power => .power

/-- A binary operator that adds, if the kind is one. -/
def Operator.adding? : Kind → Option Operator
  | .plus => some .add
  | .minus => some .subtract
  | _ => none

/-- A binary operator that multiplies, if the kind is one. -/
def Operator.multiplying? : Kind → Option Operator
  | .star => some .multiply
  | .slash => some .divide
  | .kwMod => some .modulo
  | _ => none

/-- Integers have 64 bits. -/
def inRange (value : Int) : Bool :=
  -0x8000000000000000 ≤ value && value ≤ 0x7fffffffffffffff

/-- The outcome of an operation on known operands. -/
inductive Folded where
  | value (value : Int)
  | unknown
  | divisionByZero
  | overflow
deriving DecidableEq, Repr, Inhabited

namespace Folded

def checked (value : Int) : Folded :=
  if inRange value then .value value else .overflow

/-- A power with a base beyond -1, 0 and 1 leaves the range before its exponent reaches 64, so it
is never computed further. An exponent of more than 32 bits counts as overflow for every base. -/
def power (base : Int) (exponent : Nat) : Folded :=
  if exponent ≥ 0x100000000 then .overflow
  else if base = 0 then .value (if exponent = 0 then 1 else 0)
  else if base = 1 then .value 1
  else if base = -1 then .value (if exponent % 2 = 0 then 1 else -1)
  else if exponent < 64 then checked (base.pow exponent)
  else .overflow

end Folded

/-- Division and remainder truncate toward zero. A negative exponent has no integer result, which
is no error. -/
def Operator.fold (left right : Int) : Operator → Folded
  | .add => .checked (left + right)
  | .subtract => .checked (left - right)
  | .multiply => .checked (left * right)
  | .divide => if right = 0 then .divisionByZero else .checked (left.tdiv right)
  | .modulo => if right = 0 then .divisionByZero else .checked (left.tmod right)
  | .power => if right < 0 then .unknown else .power left right.toNat

/-- The value of an integer literal. -/
def literalValue (digits : String) : Int :=
  digits.toList.foldl (fun value digit => 10 * value + (digit.toNat - '0'.toNat : Nat)) 0

end AdaFront
