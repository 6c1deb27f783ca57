/-!
# Text as bytes

Limits and positions are counted in bytes of UTF-8, and what is written to a stream is bytes.

* `bytes` is the encoding of a text; `width` is its length.
* `fitting n cs` is the longest prefix of `cs` whose encoding has at most `n` bytes:
  it is a prefix (`fitting_append_rest`), it fits (`width_fitting_le`), and the character after it
  would not (`width_fitting_lt_of_rest`).
-/

namespace JobShell.Text

/-! ## 1. Encoding -/

/-- The bytes of a list of characters. -/
def encode (cs : List Char) : List UInt8 := cs.flatMap String.utf8EncodeChar

/-- The bytes of a text. -/
def bytes (s : String) : List UInt8 := encode s.toList

/-- The number of bytes of a list of characters. -/
def width : List Char → Nat
  | [] => 0
  | c :: cs => c.utf8Size + width cs

@[simp] theorem encode_nil : encode [] = [] := rfl

@[simp] theorem encode_cons (c : Char) (cs : List Char) :
    encode (c :: cs) = String.utf8EncodeChar c ++ encode cs := rfl

@[simp] theorem encode_append (a b : List Char) : encode (a ++ b) = encode a ++ encode b := by
  simp [encode]

@[simp] theorem width_nil : width [] = 0 := rfl

@[simp] theorem width_cons (c : Char) (cs : List Char) :
    width (c :: cs) = c.utf8Size + width cs := rfl

@[simp] theorem width_append (a b : List Char) : width (a ++ b) = width a + width b := by
  induction a with
  | nil => simp
  | cons c a ih => simp [ih, Nat.add_assoc]

/-- **The width is the length of the encoding.** -/
theorem length_encode (cs : List Char) : (encode cs).length = width cs := by
  induction cs with
  | nil => rfl
  | cons c cs ih => simp [ih]

theorem bytes_append (s t : String) : bytes (s ++ t) = bytes s ++ bytes t := by
  simp [bytes]

/-- The text that some bytes encode, if they encode one. -/
def decode? (bs : List UInt8) : Option String := String.fromUTF8? ⟨bs.toArray⟩

/-! ## 2. The longest prefix that fits -/

/-- The longest prefix of at most `n` bytes, cut between characters. -/
def fitting : Nat → List Char → List Char
  | _, [] => []
  | n, c :: cs => if c.utf8Size ≤ n then c :: fitting (n - c.utf8Size) cs else []

/-- What `fitting` leaves behind. -/
def beyond : Nat → List Char → List Char
  | _, [] => []
  | n, c :: cs => if c.utf8Size ≤ n then beyond (n - c.utf8Size) cs else c :: cs

/-- **Nothing is lost between the part that fits and the rest.** -/
theorem fitting_append_beyond (n : Nat) (cs : List Char) : fitting n cs ++ beyond n cs = cs := by
  induction cs generalizing n with
  | nil => rfl
  | cons c cs ih =>
    by_cases h : c.utf8Size ≤ n
    · simp [fitting, beyond, h, ih]
    · simp [fitting, beyond, h]

/-- **The part that fits has at most `n` bytes.** -/
theorem width_fitting_le (n : Nat) (cs : List Char) : width (fitting n cs) ≤ n := by
  induction cs generalizing n with
  | nil => simp [fitting]
  | cons c cs ih =>
    by_cases h : c.utf8Size ≤ n
    · have := ih (n - c.utf8Size)
      simp only [fitting, h, if_true, width_cons]
      omega
    · simp [fitting, h]

/-- **The next character would not fit.** -/
theorem lt_width_fitting_add (n : Nat) (cs : List Char) (c : Char) (rest : List Char)
    (h : beyond n cs = c :: rest) : n < width (fitting n cs) + c.utf8Size := by
  induction cs generalizing n with
  | nil => simp [beyond] at h
  | cons d cs ih =>
    by_cases hd : d.utf8Size ≤ n
    · simp only [beyond, hd, if_true] at h
      have := ih (n - d.utf8Size) h
      simp only [fitting, hd, if_true, width_cons]
      omega
    · simp only [beyond, hd, if_false, List.cons.injEq] at h
      obtain ⟨rfl, -⟩ := h
      simp only [fitting, hd, if_false, width_nil]
      omega

/-- A text that fits is kept whole. -/
theorem fitting_of_width_le {n : Nat} {cs : List Char} (h : width cs ≤ n) : fitting n cs = cs := by
  induction cs generalizing n with
  | nil => rfl
  | cons c cs ih =>
    simp only [width_cons] at h
    have hc : c.utf8Size ≤ n := by omega
    simp only [fitting, hc, if_true]
    rw [ih (by omega)]

end JobShell.Text
