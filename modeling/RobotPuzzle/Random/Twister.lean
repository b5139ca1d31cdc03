/-
  The Mersenne twister on 32-bit words.

  1. **Seeding** (`Twister.ofKey`) — a key of words is stirred into a table of 624 words.
  2. **Turning** (`turn`) — when all words of the table have been used, each is mixed with its
     neighbour and with the word 397 places on.
  3. **Drawing** (`next`) — the words come out one by one, tempered.

  `dice` makes tosses out of two words each, and picks by drawing as many bits as the bound has and
  drawing again while they are too large.
-/
import RobotPuzzle.Random.Dice

namespace RobotPuzzle

/-- The table of words, and the index of the next one to come out. -/
structure Twister where
  /-- six hundred and twenty-four of them -/
  words : Array UInt32
  /-- past the last word, the table is turned first -/
  index : Nat
deriving Inhabited

namespace Twister

/-- The number of words in the table. -/
def size : Nat := 624

/-- The distance of the words that are mixed. -/
def reach : Nat := 397

/-- The word at a place, zero outside the table. -/
def word (words : Array UInt32) (i : Nat) : UInt32 := words.getD i 0

/-- A word folded onto its own high bits. -/
def fold (w : UInt32) : UInt32 := w ^^^ (w >>> 30)

/-! ## Seeding -/

/-- The table grown from one word. -/
def grow (first : UInt32) : Array UInt32 :=
  (List.range (size - 1)).foldl
    (fun words i => words.push (1812433253 * fold (word words i) + UInt32.ofNat (i + 1))) #[first]

/-- The place after `i`; the first word is overwritten by the last when the table is through. -/
def wrap (words : Array UInt32) (i : Nat) : Array UInt32 × Nat :=
  if i + 1 < size then (words, i + 1) else (words.setIfInBounds 0 (word words (size - 1)), 1)

/-- Stirs the words of a key in, starting at place `i` of the table and `j` of the key. -/
def stir (key : Array UInt32) : (rounds : Nat) → (words : Array UInt32) → (i j : Nat) →
    Array UInt32 × Nat
  | 0, words, i, _ => (words, i)
  | rounds + 1, words, i, j =>
    let mixed := (word words i ^^^ (fold (word words (i - 1)) * 1664525)) + word key j + UInt32.ofNat j
    let (words, i) := wrap (words.setIfInBounds i mixed) i
    stir key rounds words i (if j + 1 < key.size then j + 1 else 0)

/-- Stirs the table without a key. -/
def settle : (rounds : Nat) → (words : Array UInt32) → (i : Nat) → Array UInt32
  | 0, words, _ => words
  | rounds + 1, words, i =>
    let mixed := (word words i ^^^ (fold (word words (i - 1)) * 1566083941)) - UInt32.ofNat i
    let (words, i) := wrap (words.setIfInBounds i mixed) i
    settle rounds words i

/-- The generator seeded by a key. -/
def ofKey (key : Array UInt32) : Twister :=
  let (words, i) := stir key (max size key.size) (grow 19650218) 1 0
  let words := settle (size - 1) words i
  { words := words.setIfInBounds 0 0x80000000, index := size }

/-- The number of different words. -/
def wordRange : Nat := 0x100000000

/-- The words of a number, the lowest first. -/
def keyWords (n : Nat) : List UInt32 :=
  if n < wordRange then [UInt32.ofNat n]
  else UInt32.ofNat (n % wordRange) :: keyWords (n / wordRange)
termination_by n
decreasing_by
  simp only [wordRange] at *
  omega

/-- The generator seeded by a number; the sign does not matter. -/
def ofSeed (seed : Int) : Twister := ofKey (keyWords seed.natAbs).toArray

theorem ofSeed_neg (seed : Int) : ofSeed (-seed) = ofSeed seed := by simp [ofSeed]

/-! ## Drawing -/

/-- The high bit of one word and the low bits of the other, shifted and folded. -/
def mix (high low : UInt32) : UInt32 :=
  let y := (high &&& 0x80000000) ||| (low &&& 0x7fffffff)
  (y >>> 1) ^^^ (if y &&& 1 == 1 then 0x9908b0df else 0)

/-- One turn of the table. -/
def turn (words : Array UInt32) : Array UInt32 :=
  (List.range size).foldl
    (fun words i =>
      words.setIfInBounds i
        (word words ((i + reach) % size) ^^^ mix (word words i) (word words ((i + 1) % size))))
    words

/-- A word as it comes out. -/
def temper (w : UInt32) : UInt32 :=
  let w := w ^^^ (w >>> 11)
  let w := w ^^^ ((w <<< 7) &&& 0x9d2c5680)
  let w := w ^^^ ((w <<< 15) &&& 0xefc60000)
  w ^^^ (w >>> 18)

/-- The next word. -/
def next (g : Twister) : UInt32 × Twister :=
  if g.index < size then (temper (word g.words g.index), { g with index := g.index + 1 })
  else
    let words := turn g.words
    (temper (word words 0), { words, index := 1 })

/-- A fraction of `tossRange`: 27 bits of one word and 26 of the next. -/
def toss (g : Twister) : Nat × Twister :=
  let (a, g) := g.next
  let (b, g) := g.next
  ((a >>> 5).toNat * 0x4000000 + (b >>> 6).toNat, g)

/-- So many bits, at most 32, from the high end of one word. -/
def bits (count : Nat) (g : Twister) : Nat × Twister :=
  let (w, g) := g.next
  (w.toNat / Nat.pow 2 (32 - count), g)

/-- The number of bits of a number. -/
def bitCount (n : Nat) : Nat := if n = 0 then 0 else n.log2 + 1

/-- Draws until the bits are below the bound. -/
def pickWithin (count bound : Nat) : (patience : Nat) → Twister → Nat × Twister
  | 0, g => (0, g)
  | patience + 1, g =>
    let (r, g) := g.bits count
    if r < bound then (r, g) else pickWithin count bound patience g

/-- More draws than a generator with a long period ever rejects in a row. -/
def patience : Nat := 0x4000000000000000

/-- An index below the bound. -/
def pick (bound : Nat) (g : Twister) : Nat × Twister := pickWithin (bitCount bound) bound patience g

theorem pickWithin_lt (count bound n : Nat) (g : Twister) (h : 0 < bound) :
    (pickWithin count bound n g).1 < bound := by
  induction n generalizing g with
  | zero => exact h
  | succ n ih =>
    simp only [pickWithin]
    split
    · assumption
    · exact ih _

/-- The generator as dice. -/
def dice : Dice Twister where
  toss := toss
  pick := pick
  pick_lt := fun n g h => pickWithin_lt _ n _ g h

end Twister

end RobotPuzzle
