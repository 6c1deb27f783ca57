import JobShell.Highlight
import JobShell.Proofs.Token.Readings

/-!
# Nothing is lost in colour

Every character of a line is in just one token of it, and colours are all that highlighting adds.

* `Lexer.Spot` is where in a line one stands, and `Lexer.leavesOpen` says whether the line ends
  inside a quoted part; `Lexer.error_mem_stream_iff` says that this is what stops a reading.
* `Lexer.flatMap_text_stream` puts the tokens of a line together again.
* `Highlight.stripFrom_sequence` and `Highlight.stripFrom_text` are what is known of the removal of
  colours; `Highlight.paintAll_lossless` is the colouring of tokens.
* `Highlight.highlight_lossless` is the outcome.
-/

namespace JobShell

namespace Lexer

open Text (isBlank)

/-! ## 1. Quotes that are left open -/

/-- Where in a line one stands. -/
inductive Spot where
  /-- In front of a token, or between two of them. -/
  | between
  | word
  | quoted (mark : Char)
  | comment
  deriving DecidableEq, Repr

namespace Spot

/-- Where one stands after a character. A comment starts only where a token could. -/
def after : Spot → Char → Spot
  | between, c =>
    if isQuote c then .quoted c else if c = '#' then .comment else if endsWord c then .between
    else .word
  | word, c => if isQuote c then .quoted c else if endsWord c then .between else .word
  | quoted mark, c => if c = mark then .word else .quoted mark
  | comment, _ => .comment

/-- Inside a quoted part. -/
def isQuoted : Spot → Bool
  | quoted _ => true
  | _ => false

/-- Inside a word, in the part that a mark has opened if there is one. -/
def inWord : (open? : Option Char) → Spot
  | none => .word
  | some mark => .quoted mark

end Spot

/-- Where one stands at the end of a text. -/
def Spot.afterAll (p : Spot) (cs : List Char) : Spot := cs.foldl Spot.after p

/-- The line ends inside a quoted part. -/
def leavesOpen (line : String) : Bool := (Spot.between.afterAll line.toList).isQuoted

section Spots

variable {c : Char} {cs : List Char}

theorem after_of_endsWord (h : endsWord c = true) :
    Spot.between.after c = .between ∧ Spot.word.after c = .between := by
  obtain ⟨hquote, hcomment⟩ := not_isQuote_of_endsWord h
  simp [Spot.after, hquote, hcomment, h]

/-- A word may start wherever neither its end nor a comment does. -/
theorem between_after_eq_word (hends : endsWord c = false) (hcomment : c ≠ '#') :
    Spot.between.after c = Spot.word.after c := by
  simp [Spot.after, hends, hcomment]

theorem afterAll_comment (cs : List Char) : Spot.comment.afterAll cs = .comment := by
  induction cs with
  | nil => rfl
  | cons c cs ih => exact ih

/-- Blanks in front of a token make no difference. -/
theorem afterAll_dropWhile (cs : List Char) :
    Spot.between.afterAll (cs.dropWhile isBlank) = Spot.between.afterAll cs := by
  induction cs with
  | nil => rfl
  | cons c cs ih =>
    cases hc : isBlank c with
    | false => rw [List.dropWhile_cons_of_neg (ne_true_of_eq_false hc)]
    | true =>
      rw [List.dropWhile_cons_of_pos hc, ih, Spot.afterAll, Spot.afterAll, List.foldl_cons,
        (after_of_endsWord (endsWord_of_isBlank hc)).1]

/-- Where a word has ended, the next token may start. -/
theorem isQuoted_afterAll_word (h : ∀ d ds, cs = d :: ds → endsWord d = true) :
    (Spot.word.afterAll cs).isQuoted = (Spot.between.afterAll cs).isQuoted := by
  cases cs with
  | nil => rfl
  | cons d ds =>
    obtain ⟨hbetween, hword⟩ := after_of_endsWord (h d ds rfl)
    rw [Spot.afterAll, Spot.afterAll, List.foldl_cons, List.foldl_cons, hbetween, hword]

/-- How a reading of a word stands to the spots of the line: it fails if the line ends inside a
quoted part, and otherwise the next token may start where the word has ended. -/
def Locates (p : Spot) (cs : List Char) (r : Option (List Char × List Char)) : Prop :=
  match r with
  | none => (p.afterAll cs).isQuoted = true
  | some (_, rest) => (p.afterAll cs).isQuoted = (Spot.between.afterAll rest).isQuoted

theorem Locates.push {p : Spot} {r : Option (List Char × List Char)}
    (h : Locates (p.after c) cs r) : Locates p (c :: cs) (push c r) := by
  cases r with
  | none => exact h
  | some r => exact h

theorem Locates.pushQuote {p : Spot} {r : Option (List Char × List Char)} (m : Mode)
    (h : Locates (p.after c) cs r) : Locates p (c :: cs) (pushQuote m c r) := by
  unfold Lexer.pushQuote
  split
  · exact h.push
  · cases r with
    | none => exact h
    | some r => exact h

/-- **A reading of a word goes with the spots of the line.** -/
theorem readWord_locates (m : Mode) (open? : Option Char) (cs : List Char) :
    Locates (.inWord open?) cs (readWord m open? cs) := by
  induction cs generalizing open? with
  | nil =>
    cases open? with
    | none => rfl
    | some mark => rfl
  | cons c cs ih =>
    cases open? with
    | none =>
      rw [readWord]
      split
      · rename_i hends
        refine isQuoted_afterAll_word fun d ds h => ?_
        rw [← (List.cons.inj h).1]
        exact hends
      · rename_i hends
        split
        · rename_i hquote
          have hafter : (Spot.inWord none).after c = .inWord (some c) := by
            simp [Spot.inWord, Spot.after, hquote]
          refine Locates.pushQuote m ?_
          rw [hafter]
          exact ih (some c)
        · rename_i hquote
          have hafter : (Spot.inWord none).after c = .inWord none := by
            simp [Spot.inWord, Spot.after, hquote, hends]
          refine Locates.push ?_
          rw [hafter]
          exact ih none
    | some mark =>
      rw [readWord]
      split
      · rename_i hclose
        have hafter : (Spot.inWord (some mark)).after c = .inWord none := by
          simp [Spot.inWord, Spot.after, hclose]
        refine Locates.pushQuote m ?_
        rw [hafter]
        exact ih none
      · rename_i hclose
        have hafter : (Spot.inWord (some mark)).after c = .inWord (some mark) := by
          simp [Spot.inWord, Spot.after, hclose]
        refine Locates.push ?_
        rw [hafter]
        exact ih (some mark)

theorem afterAll_readOperator {o : Operator} (h : Operator.ofChar? c = some o) :
    Spot.between.afterAll (c :: cs) = Spot.between.afterAll (readOperator c o cs).2 := by
  have hstep : ∀ ds, Spot.between.afterAll (c :: ds) = Spot.between.afterAll ds := by
    intro ds
    rw [Spot.afterAll, List.foldl_cons, (after_of_endsWord (endsWord_of_ofChar? h)).1]
    rfl
  unfold readOperator
  split
  · split
    · rename_i hdouble
      rw [hstep, hdouble, hstep]
    · exact hstep _
  · exact hstep _

/-- **A reading of a token goes with the spots of the line.** -/
theorem readLexeme_locates (cs : List Char) (hc : isBlank c = false) :
    (readLexeme highlight (c :: cs)).1 = .error .unclosedQuote ∧
        (Spot.between.afterAll (c :: cs)).isQuoted = true ∨
      (∃ t, (readLexeme highlight (c :: cs)).1 = .ok t ∧ t ≠ .endOfLine) ∧
        (Spot.between.afterAll (c :: cs)).isQuoted =
          (Spot.between.afterAll (readLexeme highlight (c :: cs)).2).isQuoted := by
  simp only [readLexeme]
  cases hop : Operator.ofChar? c with
  | some o => exact Or.inr ⟨⟨_, rfl, by simp⟩, congrArg Spot.isQuoted (afterAll_readOperator hop)⟩
  | none =>
    have hends : endsWord c = false := by rw [endsWord, hc, hop]; rfl
    by_cases hcomment : c = '#'
    · subst hcomment
      refine Or.inr ⟨⟨.blank (String.ofList ('#' :: cs)), rfl, by simp⟩, ?_⟩
      show (Spot.comment.afterAll cs).isQuoted = false
      rw [afterAll_comment]
      rfl
    · simp only [hcomment, if_false]
      have hword : Spot.between.afterAll (c :: cs) = Spot.word.afterAll (c :: cs) := by
        rw [Spot.afterAll, Spot.afterAll, List.foldl_cons, List.foldl_cons,
          between_after_eq_word hends hcomment]
      have hlocates := readWord_locates highlight none (c :: cs)
      rw [hword]
      cases hr : readWord highlight none (c :: cs) with
      | none =>
        rw [hr] at hlocates
        exact Or.inl ⟨rfl, hlocates⟩
      | some r =>
        rw [hr] at hlocates
        exact Or.inr ⟨⟨_, rfl, by simp⟩, hlocates⟩

/-- **What stops a reading of a line is a quoted part at its end**, and nothing else. The induction
is on the length of the line, from token to token. -/
theorem error_mem_stream_iff (cs : List Char) :
    .error .unclosedQuote ∈ stream highlight cs ↔ (Spot.between.afterAll cs).isQuoted = true := by
  induction hn : cs.length using Nat.strongRecOn generalizing cs with
  | _ n ih =>
    subst hn
    cases cs with
    | nil => simp [Spot.afterAll, Spot.isQuoted]
    | cons c cs =>
      have hshorter := next_shorter highlight (c :: cs)
      cases hc : isBlank c with
      | true =>
        have hnext := next_of_blank (m := highlight) rfl hc cs
        rw [hnext] at hshorter
        have hrest := ih _ (hshorter.resolve_left (by simp)) _ rfl
        rw [stream_of_item hnext (by simp), List.mem_cons, hrest, ← afterAll_dropWhile (c :: cs),
          List.dropWhile_cons_of_pos hc]
        simp
      | false =>
        have hnext := next_of_not_blank highlight hc cs
        rcases readLexeme_locates cs hc with ⟨herror, hquoted⟩ | ⟨⟨t, ht, hend⟩, hquoted⟩
        · have hitem : next highlight (c :: cs) =
              (.error .unclosedQuote, (readLexeme highlight (c :: cs)).2) := by
            rw [hnext, ← herror]
          rw [stream_of_item hitem (by simp), hquoted]
          simp
        · have hitem : next highlight (c :: cs) = (.ok t, (readLexeme highlight (c :: cs)).2) := by
            rw [hnext, ← ht]
          have hne : (.ok t : Item) ≠ .ok .endOfLine := fun h => hend (Except.ok.inj h)
          rw [hitem] at hshorter
          have hrest := ih _ (hshorter.resolve_left hne) _ rfl
          rw [stream_of_item hitem hne, List.mem_cons, hrest, hquoted]
          simp

/-- A line without an open quote reads as tokens. -/
theorem stream_of_not_leavesOpen {line : String} (h : leavesOpen line = false) :
    ∃ ts : List Token, stream highlight line.toList = ts.map .ok := by
  obtain ⟨ts, -, hstream | hstream⟩ := stream_shape highlight line.toList
  · exact ⟨ts, hstream⟩
  · have hmem : .error .unclosedQuote ∈ stream highlight line.toList := by
      rw [hstream]
      exact List.mem_append_right _ List.mem_cons_self
    rw [error_mem_stream_iff] at hmem
    exact absurd hmem (ne_true_of_eq_false h)

end Spots

/-! ## 2. The texts of tokens -/

section Texts

variable {c : Char} {cs w rest : List Char}

/-- With its marks, a word is what was taken off the line. -/
theorem readWord_highlight {open? : Option Char}
    (h : readWord highlight open? cs = some (w, rest)) : w ++ rest = cs := by
  induction cs generalizing open? w with
  | nil =>
    cases open? with
    | none =>
      cases h
      rfl
    | some mark => cases h
  | cons c cs ih =>
    have taken : ∀ inner?, push c (readWord highlight inner? cs) = some (w, rest) →
        w ++ rest = c :: cs := by
      intro inner? hpush
      obtain ⟨v, rfl, hv⟩ := push_eq_some hpush
      rw [List.cons_append, ih hv]
    cases open? with
    | none =>
      rw [readWord] at h
      split at h
      · cases h
        rfl
      · split at h
        · exact taken _ h
        · exact taken _ h
    | some mark =>
      rw [readWord] at h
      split at h
      · exact taken _ h
      · exact taken _ h

/-- An operator is written as what was taken off the line. -/
theorem readOperator_symbol {o : Operator} (h : Operator.ofChar? c = some o) :
    (readOperator c o cs).1.symbol.toList ++ (readOperator c o cs).2 = c :: cs := by
  have hsymbol : o.symbol.toList = [c] := by
    rw [Operator.symbol_of_ofChar? h, String.toList_singleton]
  unfold readOperator
  split
  · rename_i d ds oo hdoubled
    split
    · rename_i hd
      rw [Operator.symbol_of_doubled? hdoubled, String.toList_append, hsymbol, hd]
      rfl
    · rw [hsymbol]
      rfl
  · rw [hsymbol]
    rfl

/-- **A token is what was taken off the line.** -/
theorem next_highlight_text {t : Token} (h : (next highlight cs).1 = .ok t) :
    t.text.toList ++ (next highlight cs).2 = cs := by
  cases cs with
  | nil =>
    rw [next_nil] at h ⊢
    cases h
    rfl
  | cons c cs =>
    cases hc : isBlank c with
    | true =>
      rw [next_of_blank rfl hc] at h ⊢
      cases h
      show (String.ofList _).toList ++ _ = _
      rw [String.toList_ofList, List.cons_append, List.takeWhile_append_dropWhile]
    | false =>
      rw [next_of_not_blank highlight hc] at h ⊢
      simp only [readLexeme] at h ⊢
      cases hop : Operator.ofChar? c with
      | some o =>
        rw [hop] at h
        cases h
        exact readOperator_symbol hop
      | none =>
        rw [hop] at h
        simp only at h ⊢
        split at h
        · rename_i hcomment
          rw [if_pos hcomment]
          cases h
          show (String.ofList _).toList ++ _ = _
          rw [String.toList_ofList, List.append_nil]
        · rename_i hcomment
          rw [if_neg hcomment]
          split at h
          · rename_i w rest hword
            cases h
            show (String.ofList w).toList ++ rest = _
            rw [String.toList_ofList, readWord_highlight hword]
          · cases h

/-- A line at its end has nothing left. -/
theorem eq_nil_of_next_highlight (h : isEnd (next highlight cs).1 = true) : cs = [] := by
  have hend : (next highlight cs).1 = .ok .endOfLine := by
    unfold isEnd at h
    split at h
    · assumption
    · cases h
  cases cs with
  | nil => rfl
  | cons c cs =>
    cases hc : isBlank c with
    | true =>
      rw [next_of_blank rfl hc] at hend
      cases hend
    | false =>
      rw [next_of_not_blank highlight hc] at hend
      rcases readLexeme_locates cs hc with ⟨herror, -⟩ | ⟨⟨t, ht, hne⟩, -⟩
      · rw [herror] at hend
        cases hend
      · rw [ht] at hend
        exact absurd (Except.ok.inj hend) hne

/-- **The tokens of a line put together are the line.** -/
theorem flatMap_text_stream {ts : List Token} (h : stream highlight cs = ts.map .ok) :
    ts.flatMap (·.text.toList) = cs := by
  induction ts generalizing cs with
  | nil =>
    rw [stream] at h
    split at h
    · rename_i hend
      rw [eq_nil_of_next_highlight hend]
      rfl
    · cases h
  | cons t ts ih =>
    rw [stream] at h
    split at h
    · cases h
    · obtain ⟨htoken, hrest⟩ := List.cons.inj h
      rw [List.flatMap_cons, ih hrest]
      exact next_highlight_text htoken

end Texts

end Lexer

namespace Highlight

open Lexer (Item stream leavesOpen)

/-! ## 3. Colours -/

section Colours

variable {cs ps text : List Char}

/-- Text that is no part of a sequence stays. -/
theorem stripFrom_text (h : escapeChar ∉ text) (cs : List Char) :
    stripFrom [] (text ++ cs) = text ++ stripFrom [] cs := by
  induction text with
  | nil => rfl
  | cons c text ih =>
    have hc : c ≠ escapeChar := fun hc => h (hc ▸ List.mem_cons_self)
    rw [List.cons_append, stripFrom, if_neg hc, ih fun hmem => h (List.mem_cons_of_mem c hmem),
      List.cons_append]

/-- The parameters of a sequence are held until its end is in sight. -/
theorem stripFrom_parameters {held : List Char} (h : ∀ p ∈ ps, isParameter p = true)
    (cs : List Char) :
    stripFrom (escapeChar :: '[' :: held) (ps ++ cs) =
      stripFrom (escapeChar :: '[' :: (held ++ ps)) cs := by
  induction ps generalizing held with
  | nil => rw [List.nil_append, List.append_nil]
  | cons p ps ih =>
    have hp : isParameter p = true := h p List.mem_cons_self
    have hm : p ≠ 'm' := by
      rintro rfl
      exact absurd hp (by decide)
    have hps : ∀ q ∈ ps, isParameter q = true := fun q hq => h q (List.mem_cons_of_mem p hq)
    rw [List.cons_append, stripFrom, if_neg hm, if_pos hp, ih hps, List.append_assoc]
    rfl

/-- **A sequence is removed**, wherever it stands between texts. -/
theorem stripFrom_sequence (h : ∀ p ∈ ps, isParameter p = true) (cs : List Char) :
    stripFrom [] ((escapeChar :: '[' :: ps ++ ['m']) ++ cs) = stripFrom [] cs := by
  have hopen : stripFrom [] ((escapeChar :: '[' :: ps ++ ['m']) ++ cs) =
      stripFrom [escapeChar, '['] (ps ++ ('m' :: cs)) := by
    rw [List.append_assoc]
    rfl
  rw [hopen, stripFrom_parameters h, stripFrom, if_pos rfl]

theorem Colour.code_eq (colour : Colour) :
    ∃ ps, colour.code = escapeChar :: '[' :: ps ++ ['m'] ∧ ∀ p ∈ ps, isParameter p = true := by
  cases colour with
  | builtin => exact ⟨['1', ';', '3', '3'], rfl, List.all_eq_true.1 (by decide)⟩
  | program => exact ⟨['3', '2'], rfl, List.all_eq_true.1 (by decide)⟩
  | operator => exact ⟨['3', '6'], rfl, List.all_eq_true.1 (by decide)⟩

/-- **Paint comes off.** -/
theorem stripFrom_paint (colour : Colour) (h : escapeChar ∉ text) (cs : List Char) :
    stripFrom [] (colour.paint text ++ cs) = text ++ stripFrom [] cs := by
  obtain ⟨ps, hcode, hps⟩ := colour.code_eq
  have hplain : plainCode = escapeChar :: '[' :: ['0'] ++ ['m'] := rfl
  rw [Colour.paint, List.append_assoc, List.append_assoc, hcode, stripFrom_sequence hps,
    stripFrom_text h, hplain, stripFrom_sequence (List.all_eq_true.1 (by decide))]

end Colours

/-! ## 4. A line -/

/-- How a token is shown. `atCommand` says that no word stands in front of it. -/
def shown : (atCommand : Bool) → Token → List Char
  | true, .word w => (commandColour w).paint w.toList
  | _, .operator op => Colour.operator.paint op.symbol.toList
  | _, t => t.text.toList

/-- Whether the program is still to come after a token. -/
def stillAtCommand (atCommand : Bool) : Token → Bool
  | .word _ => false
  | _ => atCommand

/-- **A line is coloured token by token.** -/
theorem paintAll_cons {t : Token} (ht : t ≠ .endOfLine) (atCommand : Bool) (items : List Item) :
    paintAll atCommand (.ok t :: items) =
      (paintAll (stillAtCommand atCommand t) items).map (shown atCommand t ++ ·) := by
  cases t with
  | endOfLine => exact absurd rfl ht
  | word w => cases atCommand <;> rfl
  | operator op => cases atCommand <;> rfl
  | blank s => cases atCommand <;> rfl

/-- The colours of a token come off. -/
theorem stripFrom_shown {t : Token} (h : escapeChar ∉ t.text.toList) (atCommand : Bool)
    (cs : List Char) :
    stripFrom [] (shown atCommand t ++ cs) = t.text.toList ++ stripFrom [] cs := by
  cases t with
  | endOfLine => cases atCommand <;> rfl
  | word w =>
    cases atCommand with
    | true => exact stripFrom_paint _ h cs
    | false => exact stripFrom_text h cs
  | operator op => cases atCommand <;> exact stripFrom_paint .operator h cs
  | blank s => cases atCommand <;> exact stripFrom_text h cs

/-- **The colours of a line come off.** -/
theorem paintAll_lossless {ts : List Token} (hts : ∀ t ∈ ts, t ≠ .endOfLine)
    (hesc : escapeChar ∉ ts.flatMap (·.text.toList)) (atCommand : Bool) :
    ∃ text, paintAll atCommand (ts.map .ok) = some text ∧
      stripFrom [] text = ts.flatMap (·.text.toList) := by
  induction ts generalizing atCommand with
  | nil => exact ⟨[], rfl, rfl⟩
  | cons t ts ih =>
    obtain ⟨ht, hts⟩ := List.forall_mem_cons.1 hts
    rw [List.flatMap_cons, List.mem_append, not_or] at hesc
    obtain ⟨text, hpaint, hstrip⟩ := ih hts hesc.2 (stillAtCommand atCommand t)
    refine ⟨shown atCommand t ++ text, ?_, ?_⟩
    · rw [List.map_cons, paintAll_cons ht, hpaint]
      rfl
    · rw [stripFrom_shown hesc.1, hstrip, List.flatMap_cons]

/-- A line that cannot be read to its end is not coloured. -/
theorem paintAll_error {ts : List Token} (hts : ∀ t ∈ ts, t ≠ .endOfLine) (e : SyntaxError)
    (atCommand : Bool) : paintAll atCommand (ts.map .ok ++ [.error e]) = none := by
  induction ts generalizing atCommand with
  | nil => rfl
  | cons t ts ih =>
    obtain ⟨ht, hts⟩ := List.forall_mem_cons.1 hts
    rw [List.map_cons, List.cons_append, paintAll_cons ht, ih hts]
    rfl

/-- **Highlighting loses no text and adds none.** The tokens of a line that leaves no quote open are
the line when they are put together; and a line without escape characters, whether it leaves a quote
open or not, comes back from its highlighted form when the colours are removed. -/
theorem highlight_lossless (line : String) :
    (leavesOpen line = false → ∃ ts : List Token,
        stream Lexer.highlight line.toList = ts.map .ok ∧
          ts.flatMap (·.text.toList) = line.toList) ∧
      (escapeChar ∉ line.toList → strip (highlight line) = line) := by
  constructor
  · intro hopen
    obtain ⟨ts, hstream⟩ := Lexer.stream_of_not_leavesOpen hopen
    exact ⟨ts, hstream, Lexer.flatMap_text_stream hstream⟩
  · intro hesc
    have hline : stripFrom [] line.toList = line.toList := by
      have h := stripFrom_text hesc []
      rwa [List.append_nil, stripFrom, List.append_nil] at h
    obtain ⟨ts, hts, hstream | hstream⟩ := Lexer.stream_shape Lexer.highlight line.toList
    · have htext := Lexer.flatMap_text_stream hstream
      obtain ⟨text, hpaint, hstrip⟩ :=
        paintAll_lossless (fun t ht => (hts t ht).1) (htext.symm ▸ hesc) true
      rw [highlight, hstream, hpaint, strip]
      simp only [String.toList_ofList]
      rw [hstrip, htext, String.ofList_toList]
    · rw [highlight, hstream, paintAll_error (fun t ht => (hts t ht).1), strip]
      simp only
      rw [hline, String.ofList_toList]

/-- A quote mark in a comment opens nothing, and one of the other kind in a quoted part is text. -/
theorem highlight_lossless_quotes :
    (∃ ts : List Token,
        stream Lexer.highlight "fg>>\"it's\"&\u3000x'' # isn't".toList = ts.map .ok ∧
          ts.flatMap (·.text.toList) = "fg>>\"it's\"&\u3000x'' # isn't".toList) ∧
      strip (highlight "fg>>\"it's\"&\u3000x'' # isn't") = "fg>>\"it's\"&\u3000x'' # isn't" ∧
      strip (highlight "echo a|b 'oops") = "echo a|b 'oops" :=
  ⟨(highlight_lossless _).1 (by decide), (highlight_lossless _).2 (by decide),
    (highlight_lossless _).2 (by decide)⟩

end Highlight

end JobShell
