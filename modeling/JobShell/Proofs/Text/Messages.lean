import JobShell.Message
import JobShell.Proofs.Text.Lines

/-!
# What is left of a message

A message is cut at a number of bytes, wherever that is in its text.

* `prefix_of_encode_append`: no encoding of a text begins another one, unless the text does.
* `decode?_line_iff` says when a message can be read as text: when it is cut between two characters,
  or not at all.
-/

namespace JobShell

namespace Text

/-! ## 1. Encodings that begin alike -/

/-- **The bytes of a character do not begin those of another one.** -/
theorem utf8EncodeChar_append_inj {c d : Char} {a b : List UInt8}
    (h : String.utf8EncodeChar c ++ a = String.utf8EncodeChar d ++ b) : c = d ∧ a = b := by
  have hread : ∀ (e : Char) (r : List UInt8),
      (String.utf8EncodeChar e ++ r).toByteArray.utf8DecodeChar? 0 = some e := by
    intro e r
    rw [List.toByteArray_append]
    exact ByteArray.utf8DecodeChar?_utf8EncodeChar_append
  have hchar : c = d := by
    have hc := hread c a
    rw [h, hread d b] at hc
    exact (Option.some.inj hc).symm
  subst hchar
  exact ⟨rfl, List.append_cancel_left h⟩

/-- **No encoding of a text begins another one, unless the text does.** -/
theorem prefix_of_encode_append {cs ds : List Char} {a : List UInt8}
    (h : encode cs ++ a = encode ds) : cs <+: ds := by
  induction cs generalizing ds with
  | nil => exact List.nil_prefix
  | cons c cs ih =>
    cases ds with
    | nil =>
      rw [encode_nil] at h
      exact absurd (List.append_eq_nil_iff.1 h).1 (encode_ne_nil (List.cons_ne_nil c cs))
    | cons d ds =>
      rw [encode_cons, encode_cons, List.append_assoc] at h
      obtain ⟨rfl, hrest⟩ := utf8EncodeChar_append_inj h
      exact List.cons_prefix_cons.2 ⟨rfl, ih hrest⟩

/-- The text that some bytes are read as is the one that they encode. -/
theorem decode?_eq_some_iff {bs : List UInt8} {s : String} :
    decode? bs = some s ↔ bytes s = bs := by
  constructor
  · intro h
    have hvalid : (⟨bs.toArray⟩ : ByteArray).IsValidUTF8 := by
      by_contra hno
      rw [decode?, String.fromUTF8?, dif_neg hno] at h
      cases h
    obtain ⟨cs, hcs⟩ := hvalid
    have hencode : encode cs = bs := by
      have hdata : (encode cs).toByteArray.data = bs.toArray := congrArg ByteArray.data hcs.symm
      rw [List.data_toByteArray] at hdata
      exact congrArg Array.toList hdata
    rw [← hencode, decode?_encode] at h
    rw [← Option.some.inj h, bytes, String.toList_ofList, hencode]
  · rintro rfl
    rw [bytes, decode?_encode, String.ofList_toList]

end Text

/-! ## 2. Messages -/

open Text

/-- A message that fits is written whole. -/
theorem line_of_width_le {text : String} (h : width text.toList ≤ bufferSize - 1) :
    line text = bytes text ++ [newline] := by
  rw [line_eq, List.take_of_length_le]
  rwa [bytes, length_encode]

/-- The number of bytes that are written for a message. -/
theorem length_line (text : String) :
    (line text).length = min (bufferSize - 1) (width text.toList) + 1 := by
  rw [line_eq, List.length_append, List.length_take, bytes, length_encode, List.length_singleton]

/-- **A message can be read as text exactly if it is cut between two characters**, or not at all. -/
theorem decode?_line_iff (text : String) :
    (∃ s, decode? (line text) = some s) ↔
      ∃ cs, cs <+: text.toList ∧ width cs = min (bufferSize - 1) (width text.toList) := by
  constructor
  · intro h
    obtain ⟨s, hs⟩ := h
    have hbytes : bytes s = (bytes text).take (bufferSize - 1) ++ [newline] := by
      rw [decode?_eq_some_iff.1 hs, line_eq]
    -- what was read ends in a newline, and what stands before it is all that was taken
    obtain ⟨cs, hcs⟩ : ∃ cs, s.toList = cs ++ ['\n'] := by
      refine eq_concat_of_getLast?_encode (c := '\n') (by decide) ?_
      show (bytes s).getLast? = _
      rw [hbytes, List.getLast?_append_of_ne_nil _ (List.cons_ne_nil _ _)]
      rfl
    have htaken : encode cs = (encode text.toList).take (bufferSize - 1) := by
      rw [bytes, hcs, encode_append] at hbytes
      exact List.append_cancel_right hbytes
    refine ⟨cs, prefix_of_encode_append (a := (encode text.toList).drop (bufferSize - 1)) ?_, ?_⟩
    · rw [htaken, List.take_append_drop]
    · rw [← length_encode, htaken, List.length_take, length_encode]
  · intro h
    obtain ⟨cs, ⟨ds, hds⟩, hwidth⟩ := h
    have htaken : (bytes text).take (bufferSize - 1) = encode cs := by
      rw [bytes, ← hds, encode_append]
      rw [← hds, width_append] at hwidth
      by_cases hcut : width cs = bufferSize - 1
      · exact List.take_left' (by rw [length_encode, hcut])
      · have hnil : encode ds = [] := by
          rw [← List.length_eq_zero_iff, length_encode]
          omega
        rw [hnil, List.append_nil, List.take_of_length_le]
        rw [length_encode]
        omega
    refine ⟨String.ofList (cs ++ ['\n']), ?_⟩
    rw [line_eq, htaken, ← decode?_encode, encode_append]
    rfl

end JobShell
