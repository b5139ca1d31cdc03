/-
  What a random search asks of its source of chance.

  A toss is a fraction, given as a number of units of one in `tossRange`; a pick is an index below a
  bound.  Anything that is asserted of a search with arbitrary dice holds for every stream of chance.
-/

namespace RobotPuzzle

/-- The number of equally likely tosses, the power of two with exponent 53. -/
def tossRange : Nat := 0x20000000000000

/-- A source of chance whose states are `σ`. -/
structure Dice (σ : Type) where
  /-- a fraction of `tossRange` -/
  toss : σ → Nat × σ
  /-- an index below the bound -/
  pick : Nat → σ → Nat × σ
  pick_lt : ∀ (n : Nat) (s : σ), 0 < n → (pick n s).1 < n

/-- The index picked from a list is one of the list. -/
theorem Dice.pick_mem {σ α : Type} (dice : Dice σ) (s : σ) {items : List α} (h : items ≠ []) :
    (dice.pick items.length s).1 < items.length :=
  dice.pick_lt _ _ (List.length_pos_iff.2 h)

end RobotPuzzle
