/-
  File paths in normal form.

  Slashes separate the parts of a path; empty parts and single dots say nothing and are left out.  A
  path that starts with a slash is absolute, and one that starts with exactly two keeps both.  The path
  without any part is a single dot.
-/

namespace RobotPuzzle.Text

/-- The pieces between separators; there is always at least one. -/
def pieces (separator : Char) : List Char → List (List Char)
  | [] => [[]]
  | c :: rest =>
    if c = separator then [] :: pieces separator rest
    else
      match pieces separator rest with
      | [] => [[c]]
      | piece :: others => (c :: piece) :: others

theorem pieces_ne_nil (separator : Char) (s : List Char) : pieces separator s ≠ [] := by
  cases s with
  | nil => simp [pieces]
  | cons c rest => unfold pieces; split <;> (try split) <;> simp

/-- No piece holds a separator. -/
theorem not_mem_pieces {separator : Char} {s piece : List Char} (h : piece ∈ pieces separator s) :
    separator ∉ piece := by
  induction s generalizing piece with
  | nil => simp_all [pieces]
  | cons c rest ih =>
    unfold pieces at h
    split at h
    · rcases List.mem_cons.1 h with rfl | h
      · simp
      · exact ih h
    · rename_i hc
      split at h
      · simp only [List.mem_singleton] at h
        subst h
        simpa using Ne.symm hc
      · rename_i first others he
        rcases List.mem_cons.1 h with rfl | h
        · simpa using ⟨Ne.symm hc, ih (he ▸ List.mem_cons_self ..)⟩
        · exact ih (he ▸ List.mem_cons_of_mem _ h)

/-- The parts of a path that say something. -/
def pathParts (path : List Char) : List (List Char) :=
  (pieces '/' path).filter fun part => part != [] && part != ['.']

/-- How an absolute path starts; nothing for a relative one. -/
def pathRoot : List Char → List Char
  | '/' :: '/' :: '/' :: _ => ['/']
  | '/' :: '/' :: _ => ['/', '/']
  | '/' :: _ => ['/']
  | _ => []

/-- The path in normal form. -/
def normalPath (path : String) : String :=
  match pathRoot path.toList ++ List.intercalate ['/'] (pathParts path.toList) with
  | [] => "."
  | whole => String.ofList whole

example : normalPath "./data/progress.json" = "data/progress.json" := by decide +kernel
example : normalPath "a//b/./" = "a/b" := by decide +kernel
example : normalPath "" = "." := by decide +kernel
example : normalPath "///a" = "/a" := by decide +kernel

end RobotPuzzle.Text
