import JobShell.Proofs.Token.Readings

/-!
# The two readings of a line

A line is read in two modes: plain, to make a command of it, and for highlighting, where nothing may
be lost. They differ in what they keep and in nothing else.

* `dropMarks` removes from a word the quote marks that open and close its quoted parts.
* `bare` is what a reading is once blanks, comments and quote marks are gone.
* `EndsOpen items n` says that readings end at an open quote, after `n` tokens that are no blanks.
* `readWord_plain` compares the two ways to read a word, `filterMap_bare_stream` the two ways to
  read a line, and `modes_agree` is the outcome.
-/

namespace JobShell.Lexer

open Text (isBlank)

/-! ## 1. What the modes differ in -/

/-- A text without the quote marks that open and close its quoted parts; `open?` is the mark that
opened the part at its start. A mark of the other kind inside a quoted part is text. -/
def dropMarks : (open? : Option Char) → List Char → List Char
  | _, [] => []
  | none, c :: cs => if isQuote c then dropMarks (some c) cs else c :: dropMarks none cs
  | some q, c :: cs => if c = q then dropMarks none cs else c :: dropMarks (some q) cs

/-- What a token is without quote marks; blanks and comments are nothing. -/
def bareToken : Token → Option Token
  | .blank _ => none
  | .word w => some (.word (String.ofList (dropMarks none w.toList)))
  | t => some t

/-- What a reading is without blanks, comments and quote marks. -/
def bare : Item → Option Item
  | .ok t => (bareToken t).map .ok
  | .error e => some (.error e)

/-- Readings end at an open quote, after `n` tokens that are no blanks. -/
def EndsOpen (items : List Item) (n : Nat) : Prop :=
  ∃ ts : List Token, items = ts.map .ok ++ [.error .unclosedQuote] ∧
    (ts.filter (!·.isBlank)).length = n

/-! ## 2. Words -/

section Words

variable {c : Char} {open? inner? : Option Char}

/-- A quote mark that is kept is removed with the others. -/
theorem map_push_mark (h : ∀ w, dropMarks open? (c :: w) = dropMarks inner? w)
    (r : Option (List Char × List Char)) :
    (push c r).map (fun (w, rest) => (dropMarks open? w, rest)) =
      r.map fun (w, rest) => (dropMarks inner? w, rest) := by
  cases r with
  | none => rfl
  | some p => simp [push, h]

/-- Text stays where it is. -/
theorem map_push_text (h : ∀ w, dropMarks open? (c :: w) = c :: dropMarks inner? w)
    (r : Option (List Char × List Char)) :
    (push c r).map (fun (w, rest) => (dropMarks open? w, rest)) =
      push c (r.map fun (w, rest) => (dropMarks inner? w, rest)) := by
  cases r with
  | none => rfl
  | some p => simp [push, h]

/-- **The plain reading of a word is the other one without the quote marks**, and as much of the
line is left after it. -/
theorem readWord_plain (open? : Option Char) (cs : List Char) :
    readWord plain open? cs =
      (readWord highlight open? cs).map fun (w, rest) => (dropMarks open? w, rest) := by
  induction cs generalizing open? with
  | nil =>
    cases open? with
    | none => rfl
    | some q => rfl
  | cons c cs ih =>
    cases open? with
    | none =>
      simp only [readWord]
      split
      · rfl
      · split
        · rename_i hquote
          have hmark (w : List Char) : dropMarks none (c :: w) = dropMarks (some c) w := by
            simp [dropMarks, hquote]
          exact (ih (some c)).trans (map_push_mark hmark _).symm
        · rename_i hquote
          have htext (w : List Char) : dropMarks none (c :: w) = c :: dropMarks none w := by
            simp [dropMarks, hquote]
          rw [map_push_text htext, ih none]
    | some q =>
      simp only [readWord]
      split
      · rename_i hclose
        have hmark (w : List Char) : dropMarks (some q) (c :: w) = dropMarks none w := by
          simp [dropMarks, hclose]
        exact (ih none).trans (map_push_mark hmark _).symm
      · rename_i hclose
        have htext (w : List Char) : dropMarks (some q) (c :: w) = c :: dropMarks (some q) w := by
          simp [dropMarks, hclose]
        rw [map_push_text htext, ih (some q)]

end Words

/-! ## 3. Lines -/

/-- Behind the blanks the two modes read the same token, with its marks and without, or a comment,
which the plain mode takes for the end of the line. -/
theorem readLexeme_modes (cs : List Char) :
    (∃ item item' rest, readLexeme highlight cs = (item, rest) ∧
        readLexeme plain cs = (item', rest) ∧ bare item = some item') ∨
      ∃ text, readLexeme highlight cs = (.ok (.blank text), []) ∧
        readLexeme plain cs = (.ok .endOfLine, []) := by
  cases cs with
  | nil => exact Or.inl ⟨_, _, _, rfl, rfl, rfl⟩
  | cons c cs =>
    simp only [readLexeme]
    cases Operator.ofChar? c with
    | some o => exact Or.inl ⟨_, _, _, rfl, rfl, rfl⟩
    | none =>
      by_cases hcomment : c = '#'
      · simp only [hcomment, if_true]
        exact Or.inr ⟨_, rfl, rfl⟩
      · simp only [hcomment, if_false]
        rw [readWord_plain none (c :: cs)]
        cases readWord highlight none (c :: cs) with
        | none => exact Or.inl ⟨_, _, _, rfl, rfl, rfl⟩
        | some p => exact Or.inl ⟨_, _, _, rfl, rfl, by simp [bare, bareToken]⟩

/-- Nothing but the end of a line is the end of it without marks. -/
theorem bare_eq_endOfLine {item : Item} (h : bare item = some (.ok .endOfLine)) :
    item = .ok .endOfLine := by
  cases item with
  | error e => cases h
  | ok t =>
    obtain ⟨t', ht, he⟩ := Option.map_eq_some_iff.1 h
    cases he
    unfold bareToken at ht
    split at ht
    · cases ht
    · cases ht
    · rw [Option.some.inj ht]

/-- Blanks in front of a line do not count for what is left without them. -/
theorem filterMap_bare_dropWhile (cs : List Char) :
    (stream highlight (cs.dropWhile isBlank)).filterMap bare =
      (stream highlight cs).filterMap bare := by
  cases cs with
  | nil => rfl
  | cons c cs =>
    cases hc : isBlank c with
    | false => rw [List.dropWhile_cons_of_neg (ne_true_of_eq_false hc)]
    | true =>
      rw [List.dropWhile_cons_of_pos hc, stream_of_item (next_of_blank rfl hc cs) (by simp)]
      rfl

/-- **The plain reading of a line is the other one without blanks, comments and quote marks.** The
induction is on the length of the line, from token to token. -/
theorem filterMap_bare_stream (cs : List Char) :
    (stream highlight cs).filterMap bare = stream plain cs := by
  induction hn : cs.length using Nat.strongRecOn generalizing cs with
  | _ n ih =>
    subst hn
    rw [← filterMap_bare_dropWhile, ← stream_plain_dropWhile]
    have hshort : (cs.dropWhile isBlank).length ≤ cs.length := dropWhile_length_le isBlank cs
    cases hbehind : cs.dropWhile isBlank with
    | nil => rw [stream_nil, stream_nil]; rfl
    | cons c ds =>
      have hc : isBlank c = false := not_blank_head hbehind
      rcases readLexeme_modes (c :: ds) with ⟨item, item', rest, hhigh, hlow, hbare⟩ |
        ⟨text, hhigh, hlow⟩
      · rw [← next_of_not_blank highlight hc] at hhigh
        rw [← next_of_not_blank plain hc] at hlow
        by_cases hend : item = .ok .endOfLine
        · subst hend
          cases hbare
          rw [stream_of_end hhigh, stream_of_end hlow]
          rfl
        · have hend' : item' ≠ .ok .endOfLine := fun h => hend (bare_eq_endOfLine (h ▸ hbare))
          have hlength : rest.length < cs.length := by
            have h := next_shorter highlight (c :: ds)
            rw [hhigh, ← hbehind] at h
            exact Nat.lt_of_lt_of_le (h.resolve_left hend) hshort
          rw [stream_of_item hhigh hend, stream_of_item hlow hend',
            List.filterMap_cons_some hbare, ih rest.length hlength rest rfl]
      · rw [← next_of_not_blank highlight hc] at hhigh
        rw [← next_of_not_blank plain hc] at hlow
        rw [stream_of_item hhigh (by simp), stream_of_end hlow, stream_nil]
        rfl

/-! ## 4. Open quotes -/

theorem filterMap_bare_map_ok (ts : List Token) :
    (ts.map .ok : List Item).filterMap bare = (ts.filterMap bareToken).map .ok := by
  rw [List.filterMap_map, List.map_filterMap]
  rfl

/-- **The tokens of a line that is read plainly to its end** are those of the other reading without
their marks, and that reading comes to its end as well. -/
theorem filterMap_bareToken_tokens {line : String} {ts : List Token}
    (h : stream plain line.toList = ts.map .ok) :
    (tokens highlight line).filterMap bareToken = ts ∧
      stream highlight line.toList = (tokens highlight line).map .ok := by
  have hbare := filterMap_bare_stream line.toList
  rcases stream_eq_tokens highlight line with hstream | hstream
  · refine ⟨?_, hstream⟩
    rw [hstream, filterMap_bare_map_ok, h] at hbare
    exact (List.map_inj_right fun _ _ => Except.ok.inj).1 hbare
  · refine absurd ?_ (error_notMem_map_ok ts .unclosedQuote)
    rw [← h, ← hbare, hstream, List.filterMap_append]
    exact List.mem_append_right _ List.mem_cons_self

/-- As many tokens are no blanks with marks as without. -/
theorem length_filterMap_bareToken (ts : List Token) :
    ((ts.filterMap bareToken).filter (!·.isBlank)).length = (ts.filter (!·.isBlank)).length := by
  induction ts with
  | nil => rfl
  | cons t ts ih =>
    cases t with
    | blank s => exact ih
    | _ => exact congrArg (· + 1) ih

/-- Tokens alone do not end at an open quote. -/
theorem not_endsOpen_map_ok (ts : List Token) (n : Nat) : ¬ EndsOpen (ts.map .ok) n := by
  rintro ⟨us, h, -⟩
  refine absurd ?_ (error_notMem_map_ok ts .unclosedQuote)
  rw [h]
  exact List.mem_append_right _ List.mem_cons_self

theorem endsOpen_append_iff {ts : List Token} {n : Nat} :
    EndsOpen (ts.map .ok ++ [.error .unclosedQuote]) n ↔ (ts.filter (!·.isBlank)).length = n := by
  constructor
  · rintro ⟨us, h, hlength⟩
    have hmap : (ts.map .ok : List Item) = us.map .ok := List.append_cancel_right h
    have hts : ts = us := (List.map_inj_right fun _ _ => Except.ok.inj).1 hmap
    rwa [hts]
  · exact fun h => ⟨ts, rfl, h⟩

/-- **The two modes agree**: they read the same tokens, but for blanks, comments and quote marks,
and if one of them comes upon an open quote, so does the other, after as many tokens. -/
theorem modes_agree (line : String) :
    (stream highlight line.toList).filterMap bare = stream plain line.toList ∧
      ∀ n, EndsOpen (stream highlight line.toList) n ↔ EndsOpen (stream plain line.toList) n := by
  have hbare := filterMap_bare_stream line.toList
  refine ⟨hbare, fun n => ?_⟩
  obtain ⟨ts, -, hshape⟩ := stream_shape highlight line.toList
  rw [← hbare]
  rcases hshape with hshape | hshape
  · rw [hshape, filterMap_bare_map_ok]
    exact iff_of_false (not_endsOpen_map_ok ts n) (not_endsOpen_map_ok _ n)
  · have herror : bare (.error .unclosedQuote) = some (.error .unclosedQuote) := rfl
    rw [hshape, List.filterMap_append, filterMap_bare_map_ok, List.filterMap_cons_some herror,
      List.filterMap_nil, endsOpen_append_iff, endsOpen_append_iff, length_filterMap_bareToken]

end JobShell.Lexer
