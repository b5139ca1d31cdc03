/-
  The fewest digits that identify a double.

  The reals that round to `m · 2^q` form an interval: half-way to either neighbour, the ends included
  exactly when `m` is even; below a power of two the lower neighbour is only half as far away.  A
  decimal `c · 10^e` identifies the double when it lies in that interval, so

  1. **Test** — `Span.contains` compares `c · 10^e` with the two ends by cross-multiplication of
     naturals; no division, no rounding.
  2. **Grid** — `Span.nearest?` tries the two multiples of `10^e` next to the value; of two hits the
     closer one counts, and an exact tie goes to the even digit.
  3. **Search** — `digits` goes from coarse grids to fine ones, so the first hit has the fewest digits.

  What `nearest?` finds lies in the interval (`Span.contains_of_nearest?`).
-/
import RobotPuzzle.Decimal.Double

namespace RobotPuzzle.Decimal

/-- The reals that round to one double: `low / scale`, `value / scale`, `high / scale`. -/
structure Span where
  low : Nat
  value : Nat
  high : Nat
  scale : Nat
  /-- the ends round to this double too -/
  closed : Bool

namespace Span

/-- The interval of `mantissa · 2 ^ exponent`, in quarters of the last place. -/
def ofBinary (mantissa : Nat) (exponent : Int) : Span :=
  let up := Nat.pow 2 (exponent - 2).toNat
  let below := if mantissa == Double.hiddenBit && exponent > -1074 then 1 else 2
  { low := (4 * mantissa - below) * up
    value := 4 * mantissa * up
    high := (4 * mantissa + 2) * up
    scale := Nat.pow 2 (2 - exponent).toNat
    closed := mantissa % 2 == 0 }

/-- `c · 10 ^ e` lies in the interval. -/
def contains (s : Span) (c : Nat) (e : Int) : Bool :=
  let point := c * Nat.pow 10 e.toNat * s.scale
  let low := s.low * Nat.pow 10 (-e).toNat
  let high := s.high * Nat.pow 10 (-e).toNat
  if s.closed then low ≤ point && point ≤ high else low < point && point < high

/-- The multiple of `10 ^ e` that identifies the double, the closer one if two do. -/
def nearest? (s : Span) (e : Int) : Option Nat :=
  let grid := Nat.pow 10 e.toNat * s.scale
  let value := s.value * Nat.pow 10 (-e).toNat
  let below := value / grid
  match s.contains below e, s.contains (below + 1) e with
  | false, false => none
  | true, false => some below
  | false, true => some (below + 1)
  | true, true =>
    let twice := 2 * (value % grid)
    some (if twice < grid || (twice == grid && below % 2 == 0) then below else below + 1)

theorem contains_of_nearest? {s : Span} {e : Int} {c : Nat} (h : s.nearest? e = some c) :
    s.contains c e = true := by
  simp only [nearest?] at h
  split at h
  · simp at h
  · rename_i hb _; injection h with h; exact h ▸ hb
  · rename_i _ ha; injection h with h; exact h ▸ ha
  · rename_i hb ha; injection h with h; split at h <;> subst h <;> assumption

end Span

/-- Trailing zeros move into the exponent. -/
def stripZeros : Nat → Nat → Int → Nat × Int
  | 0, c, e => (c, e)
  | steps + 1, c, e => if c % 10 == 0 then stripZeros steps (c / 10) (e + 1) else (c, e)

/-- The fewest digits `c` and their exponent `e` with `c · 10 ^ e` rounding to
`mantissa · 2 ^ exponent`.  The grids from `10^309` to `10^-324` suffice for every double. -/
def digits (mantissa : Nat) (exponent : Int) : Nat × Int :=
  if mantissa == 0 then (0, 0)
  else
    let span := Span.ofBinary mantissa exponent
    let grids := (List.range 634).map fun (i : Nat) => 309 - (i : Int)
    match grids.findSome? fun e => (span.nearest? e).map (·, e) with
    | some (c, e) => stripZeros 20 c e
    | none => (0, 0)

end RobotPuzzle.Decimal
