/-!
# White space

The characters that separate words on a command line, and the trimming done before a line is
evaluated.

* `isBlank` is the `White_Space` property of Unicode, as a table of ranges (`blankRanges`).
* `trim` drops blanks from both ends of a line.
* `isBlank_of_isWhitespace`: every character that core calls white space is blank; the table adds
  the ones core leaves out (vertical tab, form feed, the wide spaces, the line separators).
-/

namespace JobShell.Text

/-! ## 1. The table -/

/-- The code points with the property `White_Space`, as inclusive ranges in increasing order. -/
def blankRanges : List (Nat × Nat) :=
  [(0x09, 0x0D), (0x20, 0x20), (0x85, 0x85), (0xA0, 0xA0), (0x1680, 0x1680), (0x2000, 0x200A),
   (0x2028, 0x2029), (0x202F, 0x202F), (0x205F, 0x205F), (0x3000, 0x3000)]

/-- A character that separates words. -/
def isBlank (c : Char) : Bool :=
  blankRanges.any fun (lo, hi) => lo ≤ c.toNat && c.toNat ≤ hi

/-- The table holds 25 characters. -/
example : (blankRanges.map fun (lo, hi) => hi + 1 - lo).sum = 25 := by decide

/-- **Core's white space is blank.** -/
theorem isBlank_of_isWhitespace {c : Char} (h : c.isWhitespace = true) : isBlank c = true := by
  simp only [Char.isWhitespace, Bool.or_eq_true, decide_eq_true_eq] at h
  rcases h with ((rfl | rfl) | rfl) | rfl <;> decide

/-- A zero-width no-break space is text, not a blank. -/
example : isBlank '\ufeff' = false := by decide

/-! ## 2. Trimming -/

/-- The list without its leading blanks. -/
def dropBlanks (cs : List Char) : List Char := cs.dropWhile isBlank

/-- The list without blanks at either end. -/
def trimChars (cs : List Char) : List Char := (dropBlanks (dropBlanks cs).reverse).reverse

/-- The line without blanks at either end. -/
def trim (line : String) : String := String.ofList (trimChars line.toList)

@[simp] theorem dropBlanks_nil : dropBlanks [] = [] := rfl

theorem dropBlanks_cons (c : Char) (cs : List Char) :
    dropBlanks (c :: cs) = if isBlank c then dropBlanks cs else c :: cs := by
  simp only [dropBlanks, List.dropWhile_cons]

/-- Blanks in front of a list do not survive. -/
theorem dropBlanks_append_of_all {v : List Char} (h : ∀ c ∈ v, isBlank c = true)
    (cs : List Char) : dropBlanks (v ++ cs) = dropBlanks cs := by
  induction v with
  | nil => rfl
  | cons c v ih =>
    have hc : isBlank c = true := h c (by simp)
    rw [List.cons_append, dropBlanks_cons, if_pos hc]
    exact ih fun d hd => h d (by simp [hd])

end JobShell.Text
