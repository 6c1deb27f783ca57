import Mathlib.Data.List.Basic
import JobShell.Text.Blank
import JobShell.Text.Pieces
import JobShell.Text.Utf8

/-!
# Lines of a text, and their bytes

* `decode?_encode` says that bytes read back as the text that they encode, `mem_encode_iff` that a
  byte below 128 stands for nothing but its own character.
* `lines` are the lines of a text; `lines_cons` and `lines_last` say how a text begins with one, and
  `exists_line` that it does.
* `trimChars_concat` says that a blank at the end of a line does not survive trimming.
-/

namespace JobShell.Text

/-! ## 1. Bytes -/

/-- **Bytes read back as the text that they encode.** -/
theorem decode?_encode (cs : List Char) : decode? (encode cs) = some (String.ofList cs) := by
  have hbytes : (⟨(encode cs).toArray⟩ : ByteArray) = cs.utf8Encode := by
    apply ByteArray.ext
    exact (List.data_toByteArray).symm
  rw [decode?, hbytes, String.fromUTF8?, dif_pos ByteArray.isValidUTF8_utf8Encode]
  rfl

theorem encode_ne_nil {cs : List Char} (h : cs ≠ []) : encode cs ≠ [] := by
  cases cs with
  | nil => exact (h rfl).elim
  | cons c cs =>
    rw [← List.length_pos_iff, length_encode, width_cons]
    exact Nat.add_pos_left c.utf8Size_pos _

theorem utf8EncodeChar_of_lt {c : Char} (h : c.toNat < 128) :
    String.utf8EncodeChar c = [UInt8.ofNat c.toNat] := by
  have hle : c.val.toNat ≤ 127 := Nat.le_of_lt_succ h
  rw [String.utf8EncodeChar, if_pos hle]
  rfl

/-- The bytes of a character beyond the first 128 are beyond them too. -/
theorem le_of_mem_utf8EncodeChar {c : Char} {b : UInt8} (h : 128 ≤ c.toNat)
    (hb : b ∈ String.utf8EncodeChar c) : 128 ≤ b.toNat := by
  have hgt : ¬ c.val.toNat ≤ 127 := Nat.not_le.2 h
  rw [String.utf8EncodeChar, if_neg hgt] at hb
  split at hb
  · simp at hb
    rcases hb with rfl | rfl
    · simp; omega
    · simp; omega
  · split at hb
    · simp at hb
      rcases hb with rfl | rfl | rfl
      · simp; omega
      · simp; omega
      · simp; omega
    · simp at hb
      rcases hb with rfl | rfl | rfl | rfl
      · simp; omega
      · simp; omega
      · simp; omega
      · simp; omega

theorem toNat_ofNat_of_lt {c : Char} (h : c.toNat < 128) :
    (UInt8.ofNat c.toNat).toNat = c.toNat := by
  rw [UInt8.toNat_ofNat', Nat.mod_eq_of_lt (Nat.lt_trans h (by decide))]

/-- **A byte below 128 stands for nothing but its own character.** -/
theorem mem_encode_iff {c : Char} (h : c.toNat < 128) {cs : List Char} :
    UInt8.ofNat c.toNat ∈ encode cs ↔ c ∈ cs := by
  induction cs with
  | nil => simp
  | cons d cs ih =>
    rw [encode_cons, List.mem_append, List.mem_cons, ih]
    refine or_congr_left ?_
    by_cases hd : d.toNat < 128
    · rw [utf8EncodeChar_of_lt hd, List.mem_singleton, Char.ext_iff, ← UInt32.toNat_inj,
        ← UInt8.toNat_inj, toNat_ofNat_of_lt h, toNat_ofNat_of_lt hd]
      rfl
    · refine iff_of_false (fun hmem => ?_) ?_
      · have hle := le_of_mem_utf8EncodeChar (Nat.not_lt.1 hd) hmem
        rw [toNat_ofNat_of_lt h] at hle
        exact (Nat.not_le.2 h) hle
      · rintro rfl
        exact hd h

/-- The last byte of a text, if it is below 128, is its last character. -/
theorem eq_concat_of_getLast?_encode {c : Char} (h : c.toNat < 128) {cs : List Char}
    (hlast : (encode cs).getLast? = some (UInt8.ofNat c.toNat)) : ∃ ds, cs = ds ++ [c] := by
  rcases List.eq_nil_or_concat cs with rfl | ⟨ds, d, hcs⟩
  · cases hlast
  · rw [List.concat_eq_append] at hcs
    subst hcs
    rw [encode_append, List.getLast?_append_of_ne_nil _ (encode_ne_nil (List.cons_ne_nil d []))]
      at hlast
    have hmem : c ∈ [d] := (mem_encode_iff h).1 (List.mem_of_getLast? hlast)
    exact ⟨ds, by rw [List.mem_singleton.1 hmem]⟩

/-! ## 2. Lines -/

theorem pieces_append_cons [DecidableEq α] {sep : α} {a : List α} (h : sep ∉ a) (b : List α) :
    pieces sep (a ++ sep :: b) = a :: pieces sep b := by
  induction a with
  | nil =>
    rw [List.nil_append, pieces]
    cases hb : pieces sep b with
    | nil => exact (pieces_ne_nil sep b hb).elim
    | cons p ps => exact if_pos rfl
  | cons c a ih =>
    have hc : c ≠ sep := fun e => h (e ▸ List.mem_cons_self)
    rw [List.cons_append, pieces, ih fun hmem => h (List.mem_cons_of_mem c hmem)]
    exact if_neg hc

theorem pieces_of_notMem [DecidableEq α] {sep : α} {a : List α} (h : sep ∉ a) :
    pieces sep a = [a] := by
  induction a with
  | nil => rfl
  | cons c a ih =>
    have hc : c ≠ sep := fun e => h (e ▸ List.mem_cons_self)
    rw [pieces, ih fun hmem => h (List.mem_cons_of_mem c hmem)]
    exact if_neg hc

/-- The lines of a text. A newline ends a line, and what follows the last newline is a line only if
there is something. -/
def lines (cs : List Char) : List (List Char) :=
  let all := pieces '\n' cs
  if all.getLast? = some [] then all.dropLast else all

@[simp] theorem lines_nil : lines [] = [] := rfl

theorem lines_cons {a : List Char} (h : '\n' ∉ a) (cs : List Char) :
    lines (a ++ '\n' :: cs) = a :: lines cs := by
  have hne : pieces '\n' cs ≠ [] := pieces_ne_nil '\n' cs
  rw [lines, lines, pieces_append_cons h]
  simp only [List.getLast?_cons_of_ne_nil hne, List.dropLast_cons_of_ne_nil hne]
  split
  · rfl
  · rfl

theorem lines_last {a : List Char} (h : '\n' ∉ a) (hne : a ≠ []) : lines a = [a] := by
  rw [lines, pieces_of_notMem h]
  exact if_neg fun hlast => hne (Option.some.inj hlast)

/-- A text that is not empty begins with a line. -/
theorem exists_line {cs : List Char} (h : cs ≠ []) :
    ∃ a, '\n' ∉ a ∧ ((∃ rest, cs = a ++ '\n' :: rest) ∨ (cs = a ∧ a ≠ [])) := by
  refine ⟨cs.takeWhile (· ≠ '\n'), fun hmem => ?_, ?_⟩
  · have hall := List.all_takeWhile (p := (· ≠ '\n')) (l := cs)
    simpa using List.all_eq_true.1 hall '\n' hmem
  · cases hrest : cs.dropWhile (· ≠ '\n') with
    | nil =>
      have hall : cs.takeWhile (· ≠ '\n') = cs := by
        have := List.takeWhile_append_dropWhile (p := (· ≠ '\n')) (l := cs)
        rwa [hrest, List.append_nil] at this
      exact Or.inr ⟨hall.symm, hall.symm ▸ h⟩
    | cons c rest =>
      have hc : c = '\n' := by
        have := List.head?_dropWhile_not (· ≠ '\n') cs
        rw [hrest] at this
        simpa using this
      refine Or.inl ⟨rest, ?_⟩
      rw [← hc, ← hrest, hc]
      exact (List.takeWhile_append_dropWhile).symm

theorem lines_eq_nil_iff {cs : List Char} : lines cs = [] ↔ cs = [] := by
  refine ⟨fun hlines => ?_, fun h => h ▸ lines_nil⟩
  by_contra hne
  obtain ⟨a, ha, ⟨rest, rfl⟩ | ⟨rfl, -⟩⟩ := exists_line hne
  · rw [lines_cons ha] at hlines
    cases hlines
  · rw [lines_last ha hne] at hlines
    cases hlines

/-! ## 3. Trimming -/

/-- **A blank at the end does not survive trimming.** -/
theorem trimChars_concat {c : Char} (h : isBlank c = true) (cs : List Char) :
    trimChars (cs ++ [c]) = trimChars cs := by
  have hdrop : dropBlanks (cs ++ [c]) = dropBlanks cs ++ [c] ∨
      dropBlanks (cs ++ [c]) = [] ∧ dropBlanks cs = [] := by
    induction cs with
    | nil => exact Or.inr ⟨by rw [List.nil_append, dropBlanks_cons, if_pos h]; rfl, rfl⟩
    | cons d cs ih =>
      rw [List.cons_append, dropBlanks_cons, dropBlanks_cons]
      by_cases hd : isBlank d = true
      · rw [if_pos hd, if_pos hd]
        exact ih
      · rw [if_neg hd, if_neg hd]
        exact Or.inl rfl
  rw [trimChars, trimChars]
  rcases hdrop with hkept | ⟨hempty, hempty'⟩
  · rw [hkept, List.reverse_append, List.reverse_singleton, List.singleton_append, dropBlanks_cons,
      if_pos h]
  · rw [hempty, hempty']

end JobShell.Text
