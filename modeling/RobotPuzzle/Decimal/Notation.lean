/-
  Fractional numbers as text, and back.

  A number is written with the fewest digits that identify it: positionally when the exponent of its
  leading digit is from -4 to 15, keeping at least one place after the point, and otherwise with a
  signed exponent of at least two digits.
-/
import RobotPuzzle.Decimal.Double
import RobotPuzzle.Decimal.Shortest

namespace RobotPuzzle.Decimal

/-- `count` zeros. -/
def zeros (count : Nat) : String := String.ofList (List.replicate count '0')

/-- The digits `ds`, the leading one standing for `10 ^ lead`, without a sign. -/
def layOut (ds : List Char) (lead : Int) : String :=
  if -4 ≤ lead && lead < 16 then
    if lead < 0 then "0." ++ zeros (-lead - 1).toNat ++ String.ofList ds
    else
      let whole := lead.toNat + 1
      if ds.length ≤ whole then String.ofList ds ++ zeros (whole - ds.length) ++ ".0"
      else String.ofList (ds.take whole) ++ "." ++ String.ofList (ds.drop whole)
  else
    let head := String.ofList (ds.take 1)
    let tail := if ds.length ≤ 1 then "" else "." ++ String.ofList (ds.drop 1)
    let size := toString lead.natAbs
    head ++ tail ++ "e" ++ (if lead < 0 then "-" else "+") ++ zeros (2 - size.length) ++ size

/-- The shortest text that reads back as the same number, with the given words for the values that
are not finite. -/
def textWith (infinity notANumber : String) (x : Float) : String :=
  match Double.ofFloat x with
  | .undefined => notANumber
  | .infinite negative => (if negative then "-" else "") ++ infinity
  | .finite negative mantissa exponent =>
    let (c, e) := digits mantissa exponent
    let ds := (toString c).toList
    (if negative then "-" else "") ++ layOut ds (e + ds.length - 1)

/-- The text of a number inside a message. -/
def text (x : Float) : String := textWith "inf" "nan" x

/-- The double nearest to `mantissa · 10 ^ exponent`.  Exponents far beyond the range of doubles are
settled without computing the power. -/
def nearest (negative : Bool) (mantissa : Nat) (exponent : Int) : Float :=
  let size := exponent + (toString mantissa).length
  let x :=
    if mantissa == 0 || size < -330 then 0.0
    else if size > 310 then 1.0 / 0.0
    else Float.ofScientific mantissa (exponent < 0) exponent.natAbs
  if negative then -x else x

example : text 0.1 = "0.1" := by decide +kernel
example : text 1e16 = "1e+16" := by decide +kernel
example : text 1e-7 = "1e-07" := by decide +kernel
example : text (-0.0) = "-0.0" := by decide +kernel
example : text 123456789.125 = "123456789.125" := by decide +kernel
example : text 5e-324 = "5e-324" := by decide +kernel

end RobotPuzzle.Decimal
