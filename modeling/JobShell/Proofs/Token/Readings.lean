import JobShell.Token.Lexer

/-!
# What a line reads as

* `next_plain` and `next_of_not_blank` are the two ways in which blanks in front of a token are
  dealt with; `next_error` says that only an open quote stops a reading, and that it uses up the
  line.
* `stream_of_item` takes one token off a line, `stream_of_end` is its end.
* `Delivers m t` tells the tokens that a mode delivers, and `stream_shape` says that a line reads as
  such tokens, and that an open quote may follow them.
* `tokens m line` are the tokens themselves, and `stream_eq_tokens` says it of them.
-/

namespace JobShell.Lexer

open Text (isBlank)

variable {m : Mode} {c : Char} {cs : List Char}

/-! ## 1. One reading -/

/-- A character that ends a word neither opens a quoted part nor starts a comment. -/
theorem not_isQuote_of_endsWord (h : endsWord c = true) : isQuote c = false ∧ c ≠ '#' := by
  constructor
  · cases hquote : isQuote c with
    | false => rfl
    | true =>
      rw [isQuote, Bool.or_eq_true, decide_eq_true_eq, decide_eq_true_eq] at hquote
      rcases hquote with rfl | rfl
      · exact absurd h (by decide)
      · exact absurd h (by decide)
  · rintro rfl
    exact absurd h (by decide)

theorem endsWord_of_isBlank (h : isBlank c = true) : endsWord c = true := by
  rw [endsWord, h, Bool.true_or]

theorem endsWord_of_ofChar? {o : Operator} (h : Operator.ofChar? c = some o) :
    endsWord c = true := by
  rw [endsWord, h, Option.isSome_some, Bool.or_true]

/-- Where blanks are skipped, a reading starts behind them. -/
theorem next_plain (cs : List Char) : next plain cs = readLexeme plain (cs.dropWhile isBlank) := rfl

/-- Where blanks are kept, they are read first. -/
theorem next_of_blank (hm : m.keepBlanks = true) (hc : isBlank c = true) (cs : List Char) :
    next m (c :: cs) =
      (.ok (.blank (String.ofList (c :: cs.takeWhile isBlank))), cs.dropWhile isBlank) := by
  simp [next, hm, hc]

/-- Where there are no blanks, a reading starts at once. -/
theorem next_of_not_blank (m : Mode) (hc : isBlank c = false) (cs : List Char) :
    next m (c :: cs) = readLexeme m (c :: cs) := by
  simp [next, hc]

theorem next_nil (m : Mode) : next m [] = (.ok .endOfLine, []) := by
  simp [next, readLexeme]

theorem readLexeme_word {w rest : List Char} (hop : Operator.ofChar? c = none) (hcomment : c ≠ '#')
    (h : readWord m none (c :: cs) = some (w, rest)) :
    readLexeme m (c :: cs) = (.ok (.word (String.ofList w)), rest) := by
  simp only [readLexeme, hop, hcomment, if_false, h]

theorem readLexeme_error {e : SyntaxError} (h : (readLexeme m cs).1 = .error e) :
    e = .unclosedQuote ∧ (readLexeme m cs).2 = [] := by
  cases cs with
  | nil => cases h
  | cons c cs =>
    simp only [readLexeme] at h ⊢
    split at h
    · cases h
    · split at h
      · cases h
      · rename_i hop hcomment
        simp only [hcomment, if_false]
        split at h
        · cases h
        · rename_i hword
          cases h
          exact ⟨rfl, rfl⟩

/-- **Only an open quote stops a reading**, and it uses up the line. -/
theorem next_error {e : SyntaxError} (h : (next m cs).1 = .error e) :
    e = .unclosedQuote ∧ (next m cs).2 = [] := by
  unfold next at h ⊢
  dsimp only at h ⊢
  split at h
  · cases h
  · rename_i hkeep
    rw [if_neg hkeep]
    exact readLexeme_error h

theorem readLexeme_blank {s : String} (h : (readLexeme m cs).1 = .ok (.blank s)) :
    m.keepBlanks = true := by
  cases cs with
  | nil => cases h
  | cons c cs =>
    simp only [readLexeme] at h
    split at h
    · cases h
    · split at h
      · split at h
        · assumption
        · cases h
      · split at h
        · cases h
        · cases h

/-- Blanks and comments are delivered only where they are kept. -/
theorem next_blank {s : String} (h : (next m cs).1 = .ok (.blank s)) : m.keepBlanks = true := by
  unfold next at h
  dsimp only at h
  split at h
  · rename_i hkeep
    exact (Bool.and_eq_true_iff.1 hkeep).1
  · exact readLexeme_blank h

/-! ## 2. The whole line -/

theorem stream_of_end {rest : List Char} (h : next m cs = (.ok .endOfLine, rest)) :
    stream m cs = [] := by
  rw [stream, h]
  rfl

/-- **A line is its first token and what the rest of it reads as.** -/
theorem stream_of_item {item : Item} {rest : List Char} (h : next m cs = (item, rest))
    (hitem : item ≠ .ok .endOfLine) : stream m cs = item :: stream m rest := by
  have hend : isEnd item = false := by
    unfold isEnd
    split
    · exact absurd rfl hitem
    · rfl
  rw [stream, h, if_neg (ne_true_of_eq_false hend)]

@[simp] theorem stream_nil (m : Mode) : stream m [] = [] := stream_of_end (next_nil m)

/-- Two lines whose first readings are the same read as the same. -/
theorem stream_congr {ds : List Char} (h : next m cs = next m ds) : stream m cs = stream m ds := by
  rw [stream, h, ← stream]

/-- **Where blanks are skipped, those in front do not count.** -/
theorem stream_plain_dropWhile (cs : List Char) :
    stream plain (cs.dropWhile isBlank) = stream plain cs := by
  refine stream_congr ?_
  rw [next_plain, next_plain]
  cases h : cs.dropWhile isBlank with
  | nil => rfl
  | cons c ds => rw [List.dropWhile_cons_of_neg (ne_true_of_eq_false (not_blank_head h))]

/-- The tokens that a mode delivers: not the end of the line, and blanks only where they are
kept. -/
def Delivers (m : Mode) (t : Token) : Prop :=
  t ≠ .endOfLine ∧ (t.isBlank = true → m.keepBlanks = true)

/-- **A line reads as tokens of its mode, and an open quote may follow them.** The induction is on
the length of the line, as every token takes something off it. -/
theorem stream_shape (m : Mode) (cs : List Char) :
    ∃ ts : List Token, (∀ t ∈ ts, Delivers m t) ∧
      (stream m cs = ts.map .ok ∨ stream m cs = ts.map .ok ++ [.error .unclosedQuote]) := by
  induction hn : cs.length using Nat.strongRecOn generalizing cs with
  | _ n ih =>
    subst hn
    cases hnext : next m cs with
    | mk item rest =>
      cases item with
      | error e =>
        have herror : (next m cs).1 = .error e := by rw [hnext]
        obtain ⟨rfl, hrest⟩ := next_error herror
        have hrest' : rest = [] := by rwa [hnext] at hrest
        refine ⟨[], by simp, Or.inr ?_⟩
        rw [stream_of_item hnext (by simp), hrest', stream_nil]
        rfl
      | ok t =>
        by_cases hend : t = .endOfLine
        · subst hend
          exact ⟨[], by simp, Or.inl (stream_of_end hnext)⟩
        · have hitem : (Except.ok t : Item) ≠ .ok .endOfLine := fun h => hend (Except.ok.inj h)
          have hshorter : rest.length < cs.length := by
            have h := next_shorter m cs
            rw [hnext] at h
            exact h.resolve_left hitem
          obtain ⟨ts, hts, hshape⟩ := ih rest.length hshorter rest rfl
          have hdelivers : Delivers m t := by
            refine ⟨hend, fun hblank => ?_⟩
            cases t with
            | blank s =>
              have hitem' : (next m cs).1 = .ok (.blank s) := by rw [hnext]
              exact next_blank hitem'
            | _ => cases hblank
          refine ⟨t :: ts, List.forall_mem_cons.2 ⟨hdelivers, hts⟩, ?_⟩
          rw [stream_of_item hnext hitem]
          rcases hshape with h | h
          · exact Or.inl (by rw [h]; rfl)
          · exact Or.inr (by rw [h]; rfl)

theorem error_notMem_map_ok (ts : List Token) (e : SyntaxError) :
    (.error e : Item) ∉ (ts.map .ok : List Item) := by
  intro h
  obtain ⟨t, -, ht⟩ := List.mem_map.1 h
  cases ht

/-- The tokens of a line without an open quote are tokens of its mode. -/
theorem delivers_of_stream {ts : List Token} (h : stream m cs = ts.map .ok) :
    ∀ t ∈ ts, Delivers m t := by
  obtain ⟨us, hus, hshape⟩ := stream_shape m cs
  rw [h] at hshape
  rcases hshape with hshape | hshape
  · have hts : ts = us := (List.map_inj_right fun _ _ => Except.ok.inj).1 hshape
    rwa [hts]
  · refine absurd ?_ (error_notMem_map_ok ts .unclosedQuote)
    rw [hshape]
    exact List.mem_append_right _ List.mem_cons_self

/-! ## 3. The tokens -/

/-- The tokens of a line, up to its end or to a quote that is left open. -/
def tokens (m : Mode) (line : String) : List Token :=
  (stream m line.toList).filterMap Except.toOption

theorem filterMap_toOption_map_ok (ts : List Token) :
    (ts.map .ok : List Item).filterMap Except.toOption = ts := by
  rw [List.filterMap_map]
  exact List.filterMap_some

theorem tokens_of_stream {line : String} {ts : List Token}
    (h : stream m line.toList = ts.map .ok) : tokens m line = ts := by
  rw [tokens, h, filterMap_toOption_map_ok]

/-- **A line reads as its tokens**, and an open quote may follow them. -/
theorem stream_eq_tokens (m : Mode) (line : String) :
    stream m line.toList = (tokens m line).map .ok ∨
      stream m line.toList = (tokens m line).map .ok ++ [.error .unclosedQuote] := by
  obtain ⟨ts, -, h | h⟩ := stream_shape m line.toList
  · exact Or.inl (by rw [tokens_of_stream h, h])
  · have htokens : tokens m line = ts := by
      rw [tokens, h, List.filterMap_append, filterMap_toOption_map_ok]
      exact List.append_nil ts
    exact Or.inr (by rw [htokens, h])

theorem ok_mem_stream_iff {line : String} {t : Token} :
    .ok t ∈ stream m line.toList ↔ t ∈ tokens m line := by
  rcases stream_eq_tokens m line with h | h <;> rw [h] <;> simp

theorem delivers_of_mem_tokens {line : String} {t : Token} (h : t ∈ tokens m line) :
    Delivers m t := by
  obtain ⟨ts, hts, hshape⟩ := stream_shape m line.toList
  rw [← ok_mem_stream_iff] at h
  rcases hshape with hshape | hshape <;> rw [hshape] at h <;> exact hts t (by simpa using h)

end JobShell.Lexer
