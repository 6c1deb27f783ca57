/-!
# Pieces of a text

* `pieces` cuts a text at a separator; `joined` puts pieces together again.
* `joined_pieces`: cutting loses nothing but the separators.
-/

namespace JobShell.Text

/-- The parts of a list between separators; there is always at least one. -/
def pieces [DecidableEq α] (sep : α) : List α → List (List α)
  | [] => [[]]
  | c :: cs =>
    match pieces sep cs with
    | [] => [[c]]
    | p :: ps => if c = sep then [] :: p :: ps else (c :: p) :: ps

/-- The parts with separators between them. -/
def joined (sep : α) : List (List α) → List α
  | [] => []
  | [p] => p
  | p :: ps => p ++ sep :: joined sep ps

theorem pieces_ne_nil [DecidableEq α] (sep : α) (cs : List α) : pieces sep cs ≠ [] := by
  cases cs with
  | nil => simp [pieces]
  | cons c cs =>
    simp only [pieces]
    split
    · simp
    · split <;> simp

/-- **Joining the pieces gives the text back.** -/
theorem joined_pieces [DecidableEq α] (sep : α) (cs : List α) :
    joined sep (pieces sep cs) = cs := by
  induction cs with
  | nil => rfl
  | cons c cs ih =>
    simp only [pieces]
    split
    · rename_i h
      exact absurd h (pieces_ne_nil sep cs)
    · rename_i p ps h
      rw [h] at ih
      split
      · rename_i hc
        simp [joined, hc, ih]
      · cases ps with
        | nil => simpa [joined] using ih
        | cons q qs => simpa [joined] using ih

end JobShell.Text
