import JobShell.Job
import JobShell.Proofs.Text.Messages

/-!
# Cutting a text between characters

A text is cut to a number of bytes by going back from there, byte by byte, until two characters
meet.

* `isBoundary` tells from the bytes alone whether two characters meet at a place;
  `isBoundary_encode_iff` says that it is right.
* `boundaryBefore` goes back to such a place, and `cut` takes the bytes in front of it.
* `cut_encode` says that these are the bytes of `fitting`, so that they can be read again, and
  `prefix_fitting` that nothing longer fits.
* `StoredLine.longest_prefix_stored` is what this means for the command line that a job keeps.
-/

namespace JobShell

namespace Text

variable {c : Char} {cs ds : List Char} {bs : List UInt8} {i k n : Nat}

/-! ## 1. Where characters meet -/

/-- A byte that goes on with a character. -/
def isContinuation (b : UInt8) : Bool := 0x80 ≤ b.toNat && b.toNat < 0xC0

/-- Two characters meet at a place in some bytes, or it is one of the ends. -/
def isBoundary (bs : List UInt8) (i : Nat) : Bool :=
  i == 0 || i == bs.length || bs[i]?.any fun b => !isContinuation b

theorem isBoundary_iff : isBoundary bs i = true ↔
    i = 0 ∨ i = bs.length ∨ ∃ b, bs[i]? = some b ∧ isContinuation b = false := by
  simp [isBoundary, or_assoc, Option.any_eq_true]

theorem isContinuation_ofNat (h : n < 256) :
    isContinuation (UInt8.ofNat n) = true ↔ 0x80 ≤ n ∧ n < 0xC0 := by
  rw [isContinuation, UInt8.toNat_ofNat', Nat.mod_eq_of_lt h, Bool.and_eq_true, decide_eq_true_iff,
    decide_eq_true_iff]

/-- **A character is a byte that begins it, and bytes that go on with it.** -/
theorem utf8EncodeChar_eq_cons (c : Char) : ∃ b rest, String.utf8EncodeChar c = b :: rest ∧
    isContinuation b = false ∧ ∀ x ∈ rest, isContinuation x = true := by
  have begins {n : Nat} (hn : n < 256) (h : n < 0x80 ∨ 0xC0 ≤ n) :
      isContinuation (UInt8.ofNat n) = false := by
    rw [Bool.eq_false_iff, Ne, isContinuation_ofNat hn]
    omega
  have goesOn (n : Nat) : isContinuation (UInt8.ofNat (n % 64 + 128)) = true :=
    (isContinuation_ofNat (by omega)).2 (by omega)
  unfold String.utf8EncodeChar
  dsimp only
  split
  · rename_i h
    exact ⟨_, [], rfl, begins (by omega) (by omega), fun x hx => (List.not_mem_nil hx).elim⟩
  · split
    · refine ⟨_, _, rfl, begins (by omega) (by omega), fun x hx => ?_⟩
      rw [List.mem_singleton.1 hx]
      exact goesOn _
    · split
      · refine ⟨_, _, rfl, begins (by omega) (by omega), fun x hx => ?_⟩
        rcases List.mem_pair.1 hx with rfl | rfl
        · exact goesOn _
        · exact goesOn _
      · refine ⟨_, _, rfl, begins (by omega) (by omega), fun x hx => ?_⟩
        rcases List.mem_cons.1 hx with rfl | hx
        · exact goesOn _
        · rcases List.mem_pair.1 hx with rfl | rfl
          · exact goesOn _
          · exact goesOn _

/-- No characters meet inside a character. -/
theorem isBoundary_inside (hpos : 0 < i) (hi : i < c.utf8Size) (cs : List Char) :
    isBoundary (encode (c :: cs)) i = false := by
  obtain ⟨b, rest, hbytes, -, hrest⟩ := utf8EncodeChar_eq_cons c
  have hlength : rest.length + 1 = c.utf8Size := by
    rw [← String.length_utf8EncodeChar, hbytes, List.length_cons]
  obtain ⟨k, rfl⟩ := Nat.exists_eq_add_of_le' hpos
  have hk : k < rest.length := by omega
  have hinside : (encode (c :: cs))[k + 1]? = some rest[k] := by
    rw [encode_cons, hbytes, List.cons_append, List.getElem?_cons_succ,
      List.getElem?_append_left hk, List.getElem?_eq_getElem hk]
  rw [Bool.eq_false_iff, Ne, isBoundary_iff, hinside]
  rintro (hzero | hend | ⟨x, hx, hbegins⟩)
  · cases hzero
  · rw [length_encode, width_cons] at hend
    omega
  · rw [← Option.some.inj hx, hrest _ (List.getElem_mem hk)] at hbegins
    cases hbegins

/-- Behind a character, characters meet where they do without it. -/
theorem isBoundary_beyond (c : Char) (cs : List Char) (k : Nat) :
    isBoundary (encode (c :: cs)) (c.utf8Size + k) = isBoundary (encode cs) k := by
  have hsize := c.utf8Size_pos
  have hat : (encode (c :: cs))[c.utf8Size + k]? = (encode cs)[k]? := by
    rw [encode_cons, ← String.length_utf8EncodeChar c,
      List.getElem?_append_right (Nat.le_add_right _ _), Nat.add_sub_cancel_left]
  rw [Bool.eq_iff_iff, isBoundary_iff, isBoundary_iff, hat, length_encode, length_encode, width_cons,
    Nat.add_left_cancel_iff]
  constructor
  · rintro (hzero | h)
    · omega
    · exact Or.inr h
  · rintro (rfl | h)
    · -- what follows is nothing, or begins with a character
      cases cs with
      | nil => exact Or.inr (Or.inl rfl)
      | cons d cs =>
        obtain ⟨b, rest, hbytes, hb, -⟩ := utf8EncodeChar_eq_cons d
        exact Or.inr (Or.inr ⟨b, by rw [encode_cons, hbytes]; rfl, hb⟩)
    · exact Or.inr h

/-- **The bytes tell where characters meet.** -/
theorem isBoundary_encode_iff : isBoundary (encode cs) i = true ↔
    ∃ ds, ds <+: cs ∧ width ds = i := by
  induction cs generalizing i with
  | nil =>
    rw [isBoundary_iff]
    constructor
    · rintro (h | h | ⟨b, hb, -⟩)
      · exact ⟨[], List.nil_prefix, h.symm⟩
      · exact ⟨[], List.nil_prefix, h.symm⟩
      · cases hb
    · rintro ⟨ds, hds, rfl⟩
      rw [List.prefix_nil.1 hds]
      exact Or.inl rfl
  | cons c cs ih =>
    by_cases hzero : i = 0
    · subst hzero
      exact iff_of_true (isBoundary_iff.2 (Or.inl rfl)) ⟨[], List.nil_prefix, rfl⟩
    · by_cases hi : i < c.utf8Size
      · rw [isBoundary_inside (Nat.pos_of_ne_zero hzero) hi]
        refine iff_of_false Bool.false_ne_true ?_
        rintro ⟨ds, hds, rfl⟩
        cases ds with
        | nil => exact hzero rfl
        | cons d ds =>
          obtain ⟨rfl, -⟩ := List.cons_prefix_cons.1 hds
          rw [width_cons] at hi
          omega
      · obtain ⟨k, rfl⟩ := Nat.exists_eq_add_of_le (Nat.le_of_not_lt hi)
        rw [isBoundary_beyond, ih]
        constructor
        · rintro ⟨ds, hds, rfl⟩
          exact ⟨c :: ds, List.cons_prefix_cons.2 ⟨rfl, hds⟩, rfl⟩
        · rintro ⟨ds, hds, hwidth⟩
          cases ds with
          | nil => exact (hzero hwidth.symm).elim
          | cons d ds =>
            obtain ⟨rfl, htail⟩ := List.cons_prefix_cons.1 hds
            exact ⟨ds, htail, Nat.add_left_cancel hwidth⟩

/-! ## 2. Going back to such a place -/

/-- The last place that is not behind `i` and where characters meet. -/
def boundaryBefore (bs : List UInt8) : Nat → Nat
  | 0 => 0
  | i + 1 => if isBoundary bs (i + 1) then i + 1 else boundaryBefore bs i

theorem boundaryBefore_le (bs : List UInt8) (i : Nat) : boundaryBefore bs i ≤ i := by
  induction i with
  | zero => exact Nat.le_refl 0
  | succ i ih =>
    rw [boundaryBefore]
    split
    · exact Nat.le_refl _
    · exact Nat.le_succ_of_le ih

theorem isBoundary_boundaryBefore (bs : List UInt8) (i : Nat) :
    isBoundary bs (boundaryBefore bs i) = true := by
  induction i with
  | zero => rfl
  | succ i ih =>
    rw [boundaryBefore]
    split
    · assumption
    · exact ih

theorem le_boundaryBefore (hk : isBoundary bs k = true) (hle : k ≤ i) :
    k ≤ boundaryBefore bs i := by
  induction i with
  | zero => exact hle
  | succ i ih =>
    rw [boundaryBefore]
    split
    · exact hle
    · rename_i hno
      have hne : k ≠ i + 1 := fun h => hno (h ▸ hk)
      exact ih (by omega)

/-- The bytes in front of the last place within the first `n` bytes where characters meet. -/
def cut (n : Nat) (bs : List UInt8) : List UInt8 := bs.take (boundaryBefore bs (min bs.length n))

/-! ## 3. The longest prefix that fits -/

theorem isPrefix_fitting (n : Nat) (cs : List Char) : fitting n cs <+: cs :=
  ⟨beyond n cs, fitting_append_beyond n cs⟩

/-- **No longer prefix fits.** -/
theorem isPrefix_fitting_of_le (hds : ds <+: cs) (hwidth : width ds ≤ n) :
    ds <+: fitting n cs := by
  induction ds generalizing cs n with
  | nil => exact List.nil_prefix
  | cons d ds ih =>
    cases cs with
    | nil => exact absurd (List.prefix_nil.1 hds) (List.cons_ne_nil d ds)
    | cons c cs =>
      obtain ⟨rfl, htail⟩ := List.cons_prefix_cons.1 hds
      rw [width_cons] at hwidth
      rw [fitting, if_pos (by omega)]
      exact List.cons_prefix_cons.2 ⟨rfl, ih htail (by omega)⟩

theorem width_le_of_isPrefix (h : ds <+: cs) : width ds ≤ width cs := by
  obtain ⟨rest, rfl⟩ := h
  rw [width_append]
  exact Nat.le_add_right _ _

theorem boundaryBefore_encode (n : Nat) (cs : List Char) :
    boundaryBefore (encode cs) (min (width cs) n) = width (fitting n cs) := by
  refine Nat.le_antisymm ?_ (le_boundaryBefore ?_ ?_)
  · obtain ⟨ds, hds, hwidth⟩ :=
      isBoundary_encode_iff.1 (isBoundary_boundaryBefore (encode cs) (min (width cs) n))
    have hle := boundaryBefore_le (encode cs) (min (width cs) n)
    rw [← hwidth]
    exact width_le_of_isPrefix (isPrefix_fitting_of_le hds (by omega))
  · exact isBoundary_encode_iff.2 ⟨_, isPrefix_fitting n cs, rfl⟩
  · exact Nat.le_min.2 ⟨width_le_of_isPrefix (isPrefix_fitting n cs), width_fitting_le n cs⟩

/-- **What is in front of the cut are the bytes of the text that fits.** -/
theorem cut_encode (n : Nat) (cs : List Char) : cut n (encode cs) = encode (fitting n cs) := by
  have hcs : encode cs = encode (fitting n cs) ++ encode (beyond n cs) := by
    rw [← encode_append, fitting_append_beyond]
  rw [cut, length_encode, boundaryBefore_encode, ← length_encode, hcs, List.take_left]

example : cut 6 (bytes "a€€") = bytes "a€" := by decide

end Text

/-! ## 4. Stored lines -/

namespace StoredLine

open Text

/-- **What a line that is stored keeps of a text.** -/
structure Keeps (l : StoredLine) (s : String) : Prop where
  /-- It is read from the bytes in front of the cut, which can always be read. -/
  read : decode? (cut lineLimit (bytes s)) = some l.text
  begins : l.text.toList <+: s.toList
  width_le : width l.text.toList ≤ 1024
  longest : ∀ cs, cs <+: s.toList → width cs ≤ 1024 → cs <+: l.text.toList
  whole : width s.toList ≤ 1024 → l.text = s
  /-- Where something is left out, that is because the next character does not fit. -/
  short : 1024 < width s.toList → 1021 ≤ width l.text.toList ∧
    ∃ c rest, s.toList = l.text.toList ++ c :: rest ∧ 1024 < width l.text.toList + c.utf8Size
  nonempty : s ≠ "" → l.text ≠ ""
  /-- Storing what is stored changes nothing. -/
  again : ofString l.text = l

variable {s : String}

theorem toList_ofString (s : String) : (ofString s).text.toList = fitting lineLimit s.toList := by
  rw [ofString, String.toList_ofList]

/-- The next character does not fit, if there is one. -/
theorem exists_next (h : lineLimit < width s.toList) :
    ∃ c rest, s.toList = (ofString s).text.toList ++ c :: rest ∧
      lineLimit < width (ofString s).text.toList + c.utf8Size := by
  rw [toList_ofString]
  have hall := fitting_append_beyond lineLimit s.toList
  cases hbeyond : beyond lineLimit s.toList with
  | nil =>
    rw [hbeyond, List.append_nil] at hall
    have hle := width_fitting_le lineLimit s.toList
    rw [hall] at hle
    omega
  | cons c rest =>
    rw [hbeyond] at hall
    exact ⟨c, rest, hall.symm, lt_width_fitting_add lineLimit s.toList c rest hbeyond⟩

/-- A text that has a character keeps one. -/
theorem text_ne_empty (h : s ≠ "") : (ofString s).text ≠ "" := by
  cases hs : s.toList with
  | nil => exact absurd (String.toList_eq_nil_iff.1 hs) h
  | cons c cs =>
    have hfirst : [c] <+: fitting lineLimit s.toList := by
      refine isPrefix_fitting_of_le (hs ▸ ⟨cs, rfl⟩) ?_
      have hsize := c.utf8Size_le_four
      have hlimit : lineLimit = 1024 := rfl
      rw [width_cons, width_nil]
      omega
    rw [← toList_ofString] at hfirst
    intro hempty
    rw [hempty] at hfirst
    exact List.cons_ne_nil c [] (List.prefix_nil.1 hfirst)

/-- **The longest prefix that fits is stored**, for every text, and it can be read again. -/
theorem longest_prefix_stored (s : String) : (ofString s).Keeps s where
  read := by rw [bytes, cut_encode, decode?_encode]; rfl
  begins := by rw [toList_ofString]; exact isPrefix_fitting _ _
  width_le := (ofString s).width_le
  longest cs hcs hwidth := by rw [toList_ofString]; exact isPrefix_fitting_of_le hcs hwidth
  whole := text_ofString_of_le
  short h := by
    obtain ⟨c, rest, hnext, hlong⟩ := exists_next h
    have hsize := c.utf8Size_le_four
    have hlimit : lineLimit = 1024 := rfl
    exact ⟨by omega, c, rest, hnext, hlong⟩
  nonempty := text_ne_empty
  again := ofString_text _

end StoredLine

end JobShell
