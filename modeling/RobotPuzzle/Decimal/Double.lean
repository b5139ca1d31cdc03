/-
  What a double stands for, in exact integers.

  A double is read once from its bits into a sign, a mantissa and a power of two; everything else in
  this library that looks at a fractional number (its text, its whole part, equality with an integer)
  computes on that view and never on `Float` operations.
-/

namespace RobotPuzzle.Decimal

/-- The number a double stands for. -/
inductive Double where
  /-- `± mantissa · 2 ^ exponent` -/
  | finite (negative : Bool) (mantissa : Nat) (exponent : Int)
  | infinite (negative : Bool)
  | undefined
deriving DecidableEq

namespace Double

/-- The bit that a normal number has in front of its fraction, the power of two with exponent 52. -/
def hiddenBit : Nat := 0x10000000000000

/-- The exponent field 0 holds zero and the subnormal numbers, 2047 the values that are not finite. -/
def ofFloat (x : Float) : Double :=
  let bits := x.toBits.toNat
  let negative := bits / 0x8000000000000000 % 2 == 1
  let field : Nat := bits / hiddenBit % 2048
  let fraction : Nat := bits % hiddenBit
  if field == 2047 then
    if fraction == 0 then .infinite negative else .undefined
  else if field == 0 then .finite negative fraction (-1074)
  else .finite negative (hiddenBit + fraction) ((field : Int) - 1075)

/-- The whole part, toward zero; only finite numbers have one. -/
def truncate : Double → Option Int
  | .finite negative mantissa exponent =>
    let whole : Nat := mantissa * Nat.pow 2 exponent.toNat / Nat.pow 2 (-exponent).toNat
    some (if negative then -(whole : Int) else whole)
  | _ => none

/-- The integer this number is equal to, if it is one. -/
def toInt? : Double → Option Int
  | .finite negative mantissa exponent =>
    if mantissa * Nat.pow 2 exponent.toNat % Nat.pow 2 (-exponent).toNat == 0 then
      truncate (.finite negative mantissa exponent)
    else none
  | _ => none

/-- Zero, of either sign. -/
def isZero : Double → Bool
  | .finite _ mantissa _ => mantissa == 0
  | _ => false

/-- A number equal to an integer is its own whole part. -/
theorem truncate_of_toInt? {d : Double} {n : Int} (h : d.toInt? = some n) : d.truncate = some n := by
  cases d with
  | finite s m e => simp only [toInt?] at h; split at h <;> simp_all
  | infinite s => simp [toInt?] at h
  | undefined => simp [toInt?] at h

example : ofFloat 1.5 = .finite false (3 * 2 ^ 51) (-52) := by decide +kernel
example : (ofFloat (-1.5)).truncate = some (-1) := by decide +kernel
example : (ofFloat 1e22).toInt? = some (10 ^ 22) := by decide +kernel

end Double

end RobotPuzzle.Decimal
