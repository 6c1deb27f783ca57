import JobShell.Proofs.Token.Readings

/-!
# What is left of a line

A reading takes something off the front of a line and leaves the rest as it is.

* `behind m n cs` is what is left of a line after `n` readings, and `stream_behind` tells what that
  reads as; `behind_suffix` says that it is a suffix of the line.
* `SaysNothing cs` says that nothing but blanks and a comment is left; `stream_plain_eq_nil_iff`
  says that this is when the plain reading is over.
-/

namespace JobShell.Lexer

open Text (isBlank)

variable {m : Mode} {cs : List Char}

/-! ## 1. Suffixes -/

/-- What is left of a line after its first `n` readings. -/
def behind (m : Mode) : Nat → List Char → List Char
  | 0, cs => cs
  | n + 1, cs => behind m n (next m cs).2

theorem readOperator_suffix (c : Char) (o : Operator) (cs : List Char) :
    (readOperator c o cs).2 <:+ cs := by
  unfold readOperator
  split
  · split
    · exact List.suffix_cons _ _
    · exact List.suffix_refl _
  · exact List.suffix_refl _

theorem readLexeme_suffix (m : Mode) (cs : List Char) : (readLexeme m cs).2 <:+ cs := by
  cases cs with
  | nil => exact List.suffix_refl _
  | cons c cs =>
    simp only [readLexeme]
    split
    · exact (readOperator_suffix _ _ _).trans (List.suffix_cons _ _)
    · split
      · exact List.nil_suffix
      · split
        · rename_i hword
          exact readWord_suffix hword
        · exact List.nil_suffix

/-- **What a reading leaves is a suffix of the line.** -/
theorem next_suffix (m : Mode) (cs : List Char) : (next m cs).2 <:+ cs := by
  have hblanks : cs.dropWhile isBlank <:+ cs := List.dropWhile_suffix _
  unfold next
  dsimp only
  split
  · exact hblanks
  · exact (readLexeme_suffix m _).trans hblanks

/-- A line that reads as something reads as its first token, and then as what the rest reads as. -/
theorem next_of_stream {item : Item} {items : List Item} (h : stream m cs = item :: items) :
    (next m cs).1 = item ∧ stream m (next m cs).2 = items := by
  rw [stream] at h
  split at h
  · cases h
  · exact List.cons.inj h

/-- What is left after as many readings as there are tokens in front reads as the tokens behind. -/
theorem stream_behind {before after : List Item} (h : stream m cs = before ++ after) :
    stream m (behind m before.length cs) = after := by
  induction before generalizing cs with
  | nil => exact h
  | cons item before ih => exact ih (next_of_stream h).2

theorem behind_suffix (m : Mode) (n : Nat) (cs : List Char) : behind m n cs <:+ cs := by
  induction n generalizing cs with
  | zero => exact List.suffix_refl _
  | succ n ih => exact (ih _).trans (next_suffix m cs)

theorem behind_succ (m : Mode) (n : Nat) (cs : List Char) :
    behind m (n + 1) cs = (next m (behind m n cs)).2 := by
  induction n generalizing cs with
  | zero => rfl
  | succ n ih => exact ih (next m cs).2

/-! ## 2. Nothing left -/

/-- Nothing stands on the line but blanks and a comment. -/
def SaysNothing (cs : List Char) : Prop :=
  cs.dropWhile isBlank = [] ∨ (cs.dropWhile isBlank).head? = some '#'

theorem stream_eq_nil_iff : stream m cs = [] ↔ (next m cs).1 = .ok .endOfLine := by
  constructor
  · intro h
    rw [stream] at h
    split at h
    · rename_i hend
      unfold isEnd at hend
      split at hend
      · assumption
      · cases hend
    · cases h
  · intro h
    have hend : next m cs = (.ok .endOfLine, (next m cs).2) := by rw [← h]
    exact stream_of_end hend

/-- **The plain reading of a line is empty if nothing stands on it.** -/
theorem stream_plain_eq_nil_iff : stream plain cs = [] ↔ SaysNothing cs := by
  rw [stream_eq_nil_iff, next_plain, SaysNothing]
  cases h : cs.dropWhile isBlank with
  | nil => exact iff_of_true rfl (Or.inl rfl)
  | cons c ds =>
    have hempty : c :: ds ≠ [] := List.cons_ne_nil c ds
    simp only [hempty, false_or, List.head?_cons, Option.some.injEq, readLexeme]
    cases hop : Operator.ofChar? c with
    | some o =>
      refine iff_of_false (by simp) ?_
      rintro rfl
      cases hop
    | none =>
      by_cases hcomment : c = '#'
      · simp [hcomment, plain]
      · simp only [hcomment, if_false, iff_false]
        split
        · simp
        · simp

end JobShell.Lexer
