/-
  What a program means: the leaves it hands out, told along its structure and without any stack.

  A machine hands out at most one leaf a call, so the number of leaves that are out is the number of
  the present call, and `see n` is what call number `n` sees.

  1. **Courses** — a part of a program relates the leaves that are out when it begins to its `Ending`:
     it comes to its end, or the limit cuts it at a leaf it may no longer hand out (`handOut`).
  2. **Sequence, count, choice** — `Then` runs one part behind another, `Times` repeats a part,
     `Either` asks a condition once, in the present call.
  3. **Passes** — the loop that waits for its condition runs its whole body, asks, and begins anew; a
     pass in which no leaf came out is followed by one wait (`Passes`).
  4. **Programs** — `Node.course` and `Program.course` put these together along the tree.

  The equations below the definitions (`then_assoc`, `passes_eq`, …) are what a stack of suspended
  bodies needs in order to be read as one course.

  Why there is no stack here: a stack of frames is how a machine remembers where it is between two calls,
  and a reference for it should not share that device.  A course is a relation on the leaves handed out so
  far, so the place in a program is the place in the derivation.  What makes the two comparable is that
  both know the number of the present call, since it is the number of the leaves that are out.

  The crux is the loop that waits for its condition.  Its unrolling has to say when a pass was fruitless,
  so the number of leaves at the beginning of a pass (the mark) is part of what is left of it; `PassEnd`
  is that rest, and `passes_eq` is the one equation of the loop.
-/
import RobotPuzzle.Machine

namespace RobotPuzzle

/-- How a course ends, with all leaves that are out then. -/
inductive Ending where
  /-- the part has come to its end -/
  | finished (leaves : List Leaf)
  /-- the next leaf was due when the limit had been reached -/
  | cut (leaves : List Leaf)

namespace Ending

def leaves : Ending → List Leaf
  | finished leaves => leaves
  | cut leaves => leaves

/-- The status a machine ends with. -/
def status : Ending → Machine.Status
  | finished _ => .done
  | cut _ => .stepLimit

end Ending

/-- What a part of a program does: from the leaves that are out to how the part ends. -/
abbrev Course := List Leaf → Ending → Prop

namespace Course

/-! ## Sequence, count, choice

  A course may be cut anywhere, and a cut passes through everything around it: `Then` has one rule for a
  first part that ends and one for a first part that is cut, so the parts behind a cut never begin. -/

/-- Nothing is done. -/
def Skip : Course := fun out e => e = .finished out

/-- One leaf comes out, unless the limit has been reached. -/
def handOut (limit : Int) (leaf : Leaf) (out : List Leaf) : Ending :=
  if limit ≤ out.length then .cut out else .finished (out ++ [leaf])

/-- The course of a single leaf. -/
def One (limit : Int) (leaf : Leaf) : Course := fun out e => e = handOut limit leaf out

/-- The first part, and behind its end the second. -/
inductive Then (first second : Course) : Course
  /-- the first part comes to its end, and the second goes on from there -/
  | both {out mid e} (h : first out (.finished mid)) (rest : second mid e) : Then first second out e
  /-- the first part is cut, and the second never begins -/
  | cut {out last} (h : first out (.cut last)) : Then first second out (.cut last)

/-- The part, exactly that many times. -/
def Times (part : Course) : Nat → Course
  | 0 => Skip
  | n + 1 => Then part (Times part n)

/-- One of two parts, chosen by a condition in the present call. -/
def Either (see : Nat → Condition → Bool) (c : Condition) (yes no : Course) : Course :=
  fun out e => if see out.length c then yes out e else no out e

/-! ## The loop that waits for its condition

  The rules differ in what stands behind the body: the limit, the condition, a pass with leaves, a pass
  without.  The condition is asked in the call in which the body has ended, so with `mid.length` leaves
  out, and not in the one in which the pass began. -/

/-- Passes through a body until the condition holds behind one of them. -/
inductive Passes (see : Nat → Condition → Bool) (limit : Int) (c : Condition) (blockId : Json)
    (body : Course) : Course
  /-- the limit cuts the body -/
  | cut {out last} (h : body out (.cut last)) : Passes see limit c blockId body out (.cut last)
  /-- the condition holds behind the body -/
  | stop {out mid} (h : body out (.finished mid)) (hc : see mid.length c = true) :
      Passes see limit c blockId body out (.finished mid)
  /-- it does not hold, and a leaf came out in this pass -/
  | again {out mid e} (h : body out (.finished mid)) (hc : see mid.length c = false)
      (hleaf : out.length ≠ mid.length) (rest : Passes see limit c blockId body mid e) :
      Passes see limit c blockId body out e
  /-- it does not hold, and no leaf came out: one wait, which bears the identifier of the loop -/
  | wait {out mid next e} (h : body out (.finished mid)) (hc : see mid.length c = false)
      (hnone : out.length = mid.length)
      (hw : handOut limit { action := .wait, blockId } mid = .finished next)
      (rest : Passes see limit c blockId body next e) : Passes see limit c blockId body out e
  /-- the limit cuts that wait -/
  | waitCut {out mid last} (h : body out (.finished mid)) (hc : see mid.length c = false)
      (hnone : out.length = mid.length)
      (hw : handOut limit { action := .wait, blockId } mid = .cut last) :
      Passes see limit c blockId body out (.cut last)

end Course

/-! ## Programs -/

mutual

/-- What a node does. -/
def Node.course (see : Nat → Condition → Bool) (limit : Int) : Node → Course
  | .action action blockId => Course.One limit { action, blockId }
  | .loop count body _ => Course.Times (Program.course see limit body) count
  | .loopUntil c body blockId =>
    Course.Either see c Course.Skip
      (Course.Passes see limit c blockId (Program.course see limit body))
  | .ifThen c body _ => Course.Either see c (Program.course see limit body) Course.Skip
  | .ifElse c body other _ =>
    Course.Either see c (Program.course see limit body) (Program.course see limit other)

/-- What a program does: its nodes in order. -/
def Program.course (see : Nat → Condition → Bool) (limit : Int) : List Node → Course
  | [] => Course.Skip
  | n :: rest => Course.Then (n.course see limit) (Program.course see limit rest)

end

namespace Course

/-! ## Equations

  All of them are equations between relations, proved rule by rule.  They are stated at given leaves (`p
  out = q out`) where the reason for them holds at that moment only, and between whole courses where it
  always does. -/

/-- Two first parts that do the same from these leaves on may be exchanged, whatever comes behind them.
It is stated at `out` only, since a condition that holds now may fail later on. -/
theorem then_congr {p q : Course} {out : List Leaf} (h : p out = q out) (r : Course) :
    Then p r out = Then q r out := by
  funext e
  apply propext
  constructor
  · rintro (⟨hp, rest⟩ | hp)
    · exact .both (h ▸ hp) rest
    · exact .cut (h ▸ hp)
  · rintro (⟨hq, rest⟩ | hq)
    · exact .both (h ▸ hq) rest
    · exact .cut (h ▸ hq)

/-- Only where the first part can end does it matter what comes next. -/
theorem then_congr_right {p q r : Course} {out : List Leaf}
    (h : ∀ mid, p out (.finished mid) → q mid = r mid) : Then p q out = Then p r out := by
  funext e
  apply propext
  constructor
  · rintro (⟨hp, rest⟩ | hp)
    · exact .both hp (h _ hp ▸ rest)
    · exact .cut hp
  · rintro (⟨hp, rest⟩ | hp)
    · exact .both hp (h _ hp ▸ rest)
    · exact .cut hp

/-- Behind a part that surely ends, the next part begins where it ended. -/
theorem then_of_finished {p : Course} {out mid : List Leaf} (h : p out = (· = .finished mid))
    (r : Course) : Then p r out = r mid := by
  funext e
  apply propext
  constructor
  · rintro (⟨hp, rest⟩ | hp)
    · rw [h] at hp
      cases hp
      exact rest
    · rw [h] at hp
      cases hp
  · exact fun rest => .both (by rw [h]) rest

/-- Behind a part that is surely cut nothing happens any more. -/
theorem then_of_cut {p : Course} {out last : List Leaf} (h : p out = (· = .cut last)) (r : Course) :
    Then p r out = (· = .cut last) := by
  funext e
  apply propext
  constructor
  · rintro (⟨hp, rest⟩ | hp)
    · rw [h] at hp
      cases hp
    · rw [h] at hp
      exact hp
  · rintro rfl
    exact .cut (by rw [h])

/-- Doing nothing first leaves what is behind it.  With `then_skip` and `then_assoc`, sequence is a
monoid, so a stack of frames may be read as one course however it is bracketed. -/
@[simp] theorem skip_then (r : Course) : Then Skip r = r :=
  funext fun _ => then_of_finished rfl r

/-- Nothing more is done behind a part: its end is the end of all, and its cut as well. -/
@[simp] theorem then_skip (r : Course) : Then r Skip = r := by
  funext out e
  apply propext
  constructor
  · rintro (⟨h, rest⟩ | h)
    · cases rest
      exact h
    · exact h
  · intro h
    cases e with
    | finished mid => exact .both h rfl
    | cut last => exact .cut h

/-- The bracketing of three parts does not matter.  This is what lets a frame be pushed and popped: the
part on top and the one below it are joined with the rest of the stack in either order. -/
theorem then_assoc (p q r : Course) : Then (Then p q) r = Then p (Then q r) := by
  funext out e
  apply propext
  constructor
  · rintro (⟨h, rest⟩ | h)
    · cases h with
      | both hp hq => exact .both hp (.both hq rest)
    · cases h with
      | both hp hq => exact .both hp (.cut hq)
      | cut hp => exact .cut hp
  · rintro (⟨hp, rest⟩ | hp)
    · cases rest with
      | both hq hr => exact .both (.both hp hq) hr
      | cut hq => exact .cut (.both hp hq)
    · exact .cut (.cut hp)

theorem one_of_lt {limit : Int} {out : List Leaf} (h : (out.length : Int) < limit) (leaf : Leaf) :
    One limit leaf out = (· = .finished (out ++ [leaf])) := by
  funext e
  simp only [One, handOut, Int.not_le.2 h, if_false]

/-- At the limit it does not, and the course is cut with the leaves that are out. -/
theorem one_of_le {limit : Int} {out : List Leaf} (h : limit ≤ out.length) (leaf : Leaf) :
    One limit leaf out = (· = .cut out) := by
  funext e
  simp only [One, handOut, h, if_true]

/-- A leaf that came out is one leaf more, so that the call after it is the next one. -/
theorem length_of_one {limit : Int} {leaf : Leaf} {out mid : List Leaf}
    (h : One limit leaf out (.finished mid)) : mid.length = out.length + 1 := by
  unfold One handOut at h
  split at h
  · cases h
  · cases h
    simp

/-- A choice is its first part where the condition is seen to hold in the present call. -/
theorem either_of_sees {see : Nat → Condition → Bool} {c : Condition} {out : List Leaf}
    (h : see out.length c = true) (yes no : Course) : Either see c yes no out = yes out := by
  funext e
  simp only [Either, h, if_true]

theorem either_of_not_sees {see : Nat → Condition → Bool} {c : Condition} {out : List Leaf}
    (h : see out.length c = false) (yes no : Course) : Either see c yes no out = no out := by
  funext e
  simp only [Either, h, Bool.false_eq_true, if_false]

section Passes

variable (see : Nat → Condition → Bool) (limit : Int) (c : Condition) (blockId : Json)
  (body : Course)

/-- What is left of a loop when a pass, begun with `mark` leaves, has come to the end of its body. -/
def PassEnd (mark : Nat) : Course :=
  Either see c Skip fun mid =>
    if mark = mid.length then
      Then (One limit { action := .wait, blockId }) (Passes see limit c blockId body) mid
    else Passes see limit c blockId body mid

/-- **The loop unrolled**: it is its body and then the end of that pass.  From left to right each rule of
`Passes` is one way through the right-hand side; from right to left the end of the pass is taken apart by
what it asks, first the condition and then whether a leaf came out. -/
theorem passes_eq (out : List Leaf) :
    Passes see limit c blockId body out
      = Then body (PassEnd see limit c blockId body out.length) out := by
  funext e
  apply propext
  constructor
  · intro h
    cases h with
    | cut h => exact .cut h
    | stop h hc =>
      refine .both h ?_
      rw [PassEnd, either_of_sees hc]
      rfl
    | again h hc hleaf rest =>
      refine .both h ?_
      rw [PassEnd, either_of_not_sees hc, if_neg hleaf]
      exact rest
    | wait h hc hnone hw rest =>
      refine .both h ?_
      rw [PassEnd, either_of_not_sees hc, if_pos hnone]
      exact .both hw.symm rest
    | waitCut h hc hnone hw =>
      refine .both h ?_
      rw [PassEnd, either_of_not_sees hc, if_pos hnone]
      exact .cut hw.symm
  · rintro (⟨h, rest⟩ | h)
    · rename_i mid
      cases hc : see mid.length c with
      | true =>
        -- the condition holds at the end of the pass, and the loop is done
        rw [PassEnd, either_of_sees hc] at rest
        cases rest
        exact .stop h hc
      | false =>
        rw [PassEnd, either_of_not_sees hc] at rest
        -- it does not, and a pass without any leaf is followed by a pause of one action
        by_cases hnone : out.length = mid.length
        · rw [if_pos hnone] at rest
          cases rest with
          | both hw rest => exact .wait h hc hnone hw.symm rest
          | cut hw => exact .waitCut h hc hnone hw.symm
        · rw [if_neg hnone] at rest
          exact .again h hc hnone rest
    · exact .cut h

end Passes

end Course

end RobotPuzzle
