import Mathlib.Data.List.TakeWhile
import JobShell.Proofs.Command.Grammar
import JobShell.Proofs.Token.Rest

/-!
# White space between tokens

Outside quotes, white space parts the tokens of a line and does nothing else.

* `AllBlank w` says that a text is white space, and `Apart ds` that only a blank may begin it:
  whatever is read in front of such a text is over where it begins.
* `readWord_append` carries the reading of a word over a seam, `next_append` that of a token. A
  quote that is left open stays so if nothing but blanks follows.
* `ReadsToEnd cs` says that a line holds neither an open quote nor a comment.
* `stream_append` cuts the reading of a line at a seam. The induction is on the length of what
  stands in front of it.
* `ofLine_spacing` is the outcome for lines.
-/

namespace JobShell.Lexer

open Text (isBlank)

variable {m : Mode} {open? : Option Char} {c : Char} {cs ds w : List Char}

/-! ## 1. Blanks -/

/-- A text of white space. -/
def AllBlank (w : List Char) : Prop := ∀ c ∈ w, isBlank c = true

instance : Decidable (AllBlank w) := decidable_of_iff (w.all isBlank = true) List.all_eq_true

/-- A text that only a blank may begin. -/
def Apart (ds : List Char) : Prop := ∀ d rest, ds = d :: rest → isBlank d = true

theorem AllBlank.apart (h : AllBlank ds) : Apart ds := by
  rintro d rest rfl
  exact h d List.mem_cons_self

theorem AllBlank.apart_append (h : AllBlank w) (hne : w ≠ []) (ds : List Char) :
    Apart (w ++ ds) := by
  intro d rest heq
  obtain ⟨c, w, rfl⟩ := List.exists_cons_of_ne_nil hne
  rw [← (List.cons.inj heq).1]
  exact h c List.mem_cons_self

theorem allBlank_iff : AllBlank w ↔ w.dropWhile isBlank = [] :=
  List.dropWhile_eq_nil_iff.symm

theorem allBlank_takeWhile (cs : List Char) : AllBlank (cs.takeWhile isBlank) :=
  fun _ h => List.mem_takeWhile_imp h

/-- Blanks in front of a line do not count. -/
theorem AllBlank.stream_append (h : AllBlank w) (ds : List Char) :
    stream plain (w ++ ds) = stream plain ds := by
  rw [← stream_plain_dropWhile, ← stream_plain_dropWhile ds]
  exact congrArg _ (Text.dropBlanks_append_of_all h ds)

theorem AllBlank.stream_eq_nil (h : AllBlank w) : stream plain w = [] := by
  have hw := h.stream_append []
  rwa [List.append_nil, stream_nil] at hw

/-- **A text is what is left of it when it is trimmed, between blanks.** -/
theorem exists_trimChars (cs : List Char) :
    ∃ v w, AllBlank v ∧ AllBlank w ∧ cs = v ++ Text.trimChars cs ++ w := by
  have split (ds : List Char) : ds.takeWhile isBlank ++ Text.dropBlanks ds = ds :=
    List.takeWhile_append_dropWhile
  let ds := (Text.dropBlanks cs).reverse
  refine ⟨cs.takeWhile isBlank, (ds.takeWhile isBlank).reverse, allBlank_takeWhile cs,
    fun c hc => allBlank_takeWhile ds c (List.mem_reverse.1 hc), ?_⟩
  calc cs = cs.takeWhile isBlank ++ ds.reverse := by rw [List.reverse_reverse, split]
    _ = cs.takeWhile isBlank ++ (ds.takeWhile isBlank ++ Text.dropBlanks ds).reverse := by
        rw [split]
    _ = cs.takeWhile isBlank ++ Text.trimChars cs ++ (ds.takeWhile isBlank).reverse := by
        rw [List.reverse_append, ← List.append_assoc]
        rfl

/-! ## 2. Words and operators -/

theorem not_isBlank_of_ofChar? {o : Operator} (h : Operator.ofChar? c = some o) :
    isBlank c = false := by
  unfold Operator.ofChar? at h
  split at h
  all_goals first | decide | cases h

/-- What has been read of a word, and what follows it, if the line goes on with `ds`. -/
def goingOn (ds : List Char) (r : Option (List Char × List Char)) :
    Option (List Char × List Char) :=
  r.map fun (word, rest) => (word, rest ++ ds)

section Words

variable {r : Option (List Char × List Char)}

theorem push_goingOn : push c (goingOn ds r) = goingOn ds (push c r) := by
  cases r <;> rfl

theorem pushQuote_goingOn : pushQuote m c (goingOn ds r) = goingOn ds (pushQuote m c r) := by
  unfold pushQuote
  split
  · exact push_goingOn
  · rfl

theorem isSome_push : (push c r).isSome = r.isSome := Option.isSome_map

theorem isSome_pushQuote : (pushQuote m c r).isSome = r.isSome := by
  unfold pushQuote
  split
  · exact isSome_push
  · rfl

/-- Blanks do not close a quoted part. -/
theorem readWord_open_of_allBlank {q : Char} (hq : isQuote q = true) (h : AllBlank ds) :
    readWord m (some q) ds = none := by
  induction ds with
  | nil => rfl
  | cons d ds ih =>
    obtain ⟨hd, hds⟩ := List.forall_mem_cons.1 h
    have hne : d ≠ q := by
      rintro rfl
      rw [(not_isQuote_of_endsWord (endsWord_of_isBlank hd)).1] at hq
      cases hq
    rw [readWord, if_neg hne, ih hds]
    rfl

theorem readWord_of_apart (h : Apart ds) : readWord m none ds = some ([], ds) := by
  cases ds with
  | nil => rfl
  | cons d ds =>
    rw [readWord, if_pos (endsWord_of_isBlank (h d ds rfl))]

/-- **A word is read the same if the line goes on with a blank**; a quote that is left open may go
on with blanks only. -/
theorem readWord_append (hopen : ∀ q ∈ open?, isQuote q = true) (hds : Apart ds)
    (h : (readWord m open? cs).isSome = true ∨ AllBlank ds) :
    readWord m open? (cs ++ ds) = goingOn ds (readWord m open? cs) := by
  induction cs generalizing open? with
  | nil =>
    cases open? with
    | none => exact readWord_of_apart hds
    | some q =>
      rcases h with h | h
      · cases h
      · exact readWord_open_of_allBlank (hopen q rfl) h
  | cons c cs ih =>
    have hnone : ∀ q ∈ (none : Option Char), isQuote q = true := by rintro q ⟨⟩
    cases open? with
    | none =>
      simp only [List.cons_append, readWord] at h ⊢
      split
      · rfl
      · rename_i hends
        rw [if_neg hends] at h
        split
        · rename_i hquote
          rw [if_pos hquote, isSome_pushQuote] at h
          rw [ih (by rintro q ⟨⟩; exact hquote) h, pushQuote_goingOn]
        · rename_i hquote
          rw [if_neg hquote, isSome_push] at h
          rw [ih hnone h, push_goingOn]
    | some q =>
      simp only [List.cons_append, readWord] at h ⊢
      split
      · rename_i hclose
        rw [if_pos hclose, isSome_pushQuote] at h
        rw [ih hnone h, pushQuote_goingOn]
      · rename_i hclose
        rw [if_neg hclose, isSome_push] at h
        rw [ih hopen h, push_goingOn]

end Words

/-- A blank does not double an operator. -/
theorem readOperator_append {o : Operator} (h : Operator.ofChar? c = some o) (hds : Apart ds) :
    readOperator c o (cs ++ ds) = ((readOperator c o cs).1, (readOperator c o cs).2 ++ ds) := by
  cases hdouble : o.doubled? with
  | none => simp [readOperator, hdouble]
  | some oo =>
    cases cs with
    | cons d cs =>
      simp only [readOperator, hdouble, List.cons_append]
      split <;> rfl
    | nil =>
      cases ds with
      | nil => rfl
      | cons d ds =>
        have hne : d ≠ c := by
          rintro rfl
          have hblank := hds d ds rfl
          rw [not_isBlank_of_ofChar? h] at hblank
          cases hblank
        simp [readOperator, hdouble, hne]

/-! ## 3. Tokens -/

/-- A reading of a line that goes on with `ds`: a token leaves that, too, an open quote uses it
up. -/
def leaving (ds : List Char) : Item × List Char → Item × List Char
  | (.ok t, rest) => (.ok t, rest ++ ds)
  | (.error e, rest) => (.error e, rest)

/-- A token is read the same if the line goes on with a blank. -/
theorem readLexeme_append (hcomment : c ≠ '#') (hds : Apart ds)
    (h : (∃ t, (readLexeme m (c :: cs)).1 = .ok t) ∨ AllBlank ds) :
    readLexeme m (c :: (cs ++ ds)) = leaving ds (readLexeme m (c :: cs)) := by
  cases hop : Operator.ofChar? c with
  | some o =>
    simp only [readLexeme, hop, readOperator_append hop hds]
    rfl
  | none =>
    have hsome : (readWord m none (c :: cs)).isSome = true ∨ AllBlank ds := by
      refine h.imp_left ?_
      rintro ⟨t, ht⟩
      simp only [readLexeme, hop, hcomment, if_false] at ht
      split at ht
      · rename_i hword
        rw [hword]
        rfl
      · cases ht
    have hword := readWord_append (by rintro q ⟨⟩) hds hsome
    rw [List.cons_append] at hword
    simp only [readLexeme, hop, hcomment, if_false, hword]
    cases readWord m none (c :: cs) <;> rfl

/-- **Behind the blanks, a token is read the same if the line goes on with a blank.** -/
theorem next_append {c' : Char} {cs' : List Char} (hcs : cs.dropWhile isBlank = c' :: cs')
    (hcomment : c' ≠ '#') (hds : Apart ds)
    (h : (∃ t, (next plain cs).1 = .ok t) ∨ AllBlank ds) :
    next plain (cs ++ ds) = leaving ds (next plain cs) := by
  have hdrop : (cs ++ ds).dropWhile isBlank = c' :: (cs' ++ ds) := by
    rw [List.dropWhile_append, hcs]
    rfl
  rw [next_plain, hcs] at h
  rw [next_plain, hdrop, next_plain, hcs]
  exact readLexeme_append hcomment hds h

/-! ## 4. Lines -/

/-- The plain reading of a line comes upon a comment. -/
def MeetsComment (cs : List Char) : Prop :=
  ∃ n, ((behind plain n cs).dropWhile isBlank).head? = some '#'

/-- The plain reading of a line comes to its end, with neither an open quote nor a comment on the
way. -/
structure ReadsToEnd (cs : List Char) : Prop where
  noError : ∀ e, .error e ∉ stream plain cs
  noComment : ¬ MeetsComment cs

/-- Without its sign there is no comment. -/
theorem not_meetsComment_of_notMem (h : '#' ∉ cs) : ¬ MeetsComment cs := by
  rintro ⟨n, hn⟩
  have hmem := List.mem_of_mem_head? hn
  exact h ((behind_suffix plain n cs).subset ((List.dropWhile_suffix _).subset hmem))

theorem ReadsToEnd.behind_token {t : Token} {rest : List Char} (h : ReadsToEnd cs)
    (hnext : next plain cs = (.ok t, rest)) (ht : t ≠ .endOfLine) : ReadsToEnd rest := by
  have hstream : stream plain cs = .ok t :: stream plain rest :=
    stream_of_item hnext fun hend => ht (Except.ok.inj hend)
  constructor
  · intro e he
    refine h.noError e ?_
    rw [hstream]
    exact List.mem_cons_of_mem _ he
  · rintro ⟨n, hn⟩
    refine h.noComment ⟨n + 1, ?_⟩
    rw [behind, hnext]
    exact hn

section Seams

variable {c' : Char} {cs' : List Char}

theorem stream_append_of_token {t : Token} {rest : List Char} (ht : t ≠ .endOfLine)
    (hnext : next plain cs = (.ok t, rest)) (hwhole : next plain (cs ++ ds) = (.ok t, rest ++ ds))
    (h : stream plain (rest ++ ds) = stream plain rest ++ stream plain ds) :
    stream plain (cs ++ ds) = stream plain cs ++ stream plain ds := by
  have hitem : (Except.ok t : Item) ≠ .ok .endOfLine := fun he => ht (Except.ok.inj he)
  rw [stream_of_item hwhole hitem, stream_of_item hnext hitem, h]
  rfl

/-- An open quote uses up the blanks behind it. -/
theorem stream_append_of_open {e : SyntaxError} {rest : List Char}
    (hnext : next plain cs = (.error e, rest)) (hwhole : next plain (cs ++ ds) = (.error e, rest))
    (hds : AllBlank ds) : stream plain (cs ++ ds) = stream plain cs ++ stream plain ds := by
  rw [stream_of_item hwhole (by simp), stream_of_item hnext (by simp), hds.stream_eq_nil,
    List.append_nil]

/-- So does a comment. -/
theorem stream_append_of_comment (hcs : cs.dropWhile isBlank = '#' :: cs') (hds : AllBlank ds) :
    stream plain (cs ++ ds) = stream plain cs ++ stream plain ds := by
  have hfront : SaysNothing cs := Or.inr (by rw [hcs]; rfl)
  have hwhole : SaysNothing (cs ++ ds) := Or.inr (by rw [List.dropWhile_append, hcs]; rfl)
  rw [stream_plain_eq_nil_iff.2 hfront, stream_plain_eq_nil_iff.2 hwhole, hds.stream_eq_nil]
  rfl

/-- What stands on a line, and is no comment, is a token or an open quote. -/
theorem ne_endOfLine_of_next {t : Token} {rest : List Char}
    (hcs : cs.dropWhile isBlank = c' :: cs') (hcomment : c' ≠ '#')
    (hnext : next plain cs = (.ok t, rest)) : t ≠ .endOfLine := by
  rintro rfl
  have hnothing : SaysNothing cs := stream_plain_eq_nil_iff.1 (stream_of_end hnext)
  rw [SaysNothing, hcs] at hnothing
  simp [hcomment] at hnothing

end Seams

/-- **A line that goes on with a blank reads as its two parts**, one after the other, if the first
of them reads to its end, and in any case if nothing but blanks follows it. The induction is on the
length of the first part, from token to token. -/
theorem stream_append (hds : Apart ds) (h : ReadsToEnd cs ∨ AllBlank ds) :
    stream plain (cs ++ ds) = stream plain cs ++ stream plain ds := by
  induction hn : cs.length using Nat.strongRecOn generalizing cs with
  | _ n ih =>
    subst hn
    cases hcs : cs.dropWhile isBlank with
    | nil =>
      have hblank : AllBlank cs := allBlank_iff.2 hcs
      rw [hblank.stream_append, hblank.stream_eq_nil]
      rfl
    | cons c' cs' =>
      by_cases hcomment : c' = '#'
      · subst hcomment
        rcases h with h | h
        · exact absurd ⟨0, by rw [behind, hcs]; rfl⟩ h.noComment
        · exact stream_append_of_comment hcs h
      · have hover := next_append hcs hcomment hds
        cases hnext : next plain cs with
        | mk item rest =>
          rw [hnext] at hover
          cases item with
          | ok t =>
            have ht := ne_endOfLine_of_next hcs hcomment hnext
            have hshorter : rest.length < cs.length := by
              have hshort := next_shorter plain cs
              rw [hnext] at hshort
              exact hshort.resolve_left fun he => ht (Except.ok.inj he)
            have hrest : ReadsToEnd rest ∨ AllBlank ds :=
              h.imp_left fun hends => hends.behind_token hnext ht
            exact stream_append_of_token ht hnext (hover (Or.inl ⟨t, rfl⟩))
              (ih rest.length hshorter hrest rfl)
          | error e =>
            rcases h with h | h
            · refine absurd ?_ (h.noError e)
              rw [stream_of_item hnext (by simp)]
              exact List.mem_cons_self
            · exact stream_append_of_open hnext (hover (Or.inr h)) h

end JobShell.Lexer

namespace JobShell.Command

open Lexer (stream plain AllBlank ReadsToEnd)

/-- A line between blanks reads as the line. -/
theorem stream_between {v w : List Char} (hv : AllBlank v) (hw : AllBlank w) (cs : List Char) :
    stream plain (v ++ cs ++ w) = stream plain cs := by
  rw [List.append_assoc, hv.stream_append, Lexer.stream_append hw.apart (Or.inr hw),
    hw.stream_eq_nil, List.append_nil]

/-- Two texts with white space between them read as the two, one after the other. -/
theorem stream_apart {w : List Char} (hw : AllBlank w) (hne : w ≠ []) {cs : List Char}
    (h : ReadsToEnd cs) (ds : List Char) :
    stream plain (cs ++ w ++ ds) = stream plain cs ++ stream plain ds := by
  rw [List.append_assoc, Lexer.stream_append (hw.apart_append hne ds) (Or.inl h), hw.stream_append]

/-- Lines that read as the same tokens are the same command, or refused alike. -/
theorem ofLine_congr {line line' : String}
    (h : stream plain line.toList = stream plain line'.toList) : ofLine line = ofLine line' := by
  rw [Grammar.ofLine_eq_goOn, Grammar.ofLine_eq_goOn, h]

/-- **Outside quotes, white space only separates.** At the ends of a line it does not count, so a
line that is trimmed is the same command, or refused alike. In the middle of a line, behind a text
that reads to its end, white space parts the tokens on either side, and it does not matter what
white space it is. -/
theorem ofLine_spacing :
    (∀ v line w : String, AllBlank v.toList → AllBlank w.toList →
        ofLine (v ++ line ++ w) = ofLine line) ∧
      (∀ line : String, ofLine (Text.trim line) = ofLine line) ∧
      ∀ a w w' b : String, ReadsToEnd a.toList → AllBlank w.toList → w ≠ "" →
        AllBlank w'.toList → w' ≠ "" →
          stream plain (a ++ w ++ b).toList = stream plain a.toList ++ stream plain b.toList ∧
            ofLine (a ++ w ++ b) = ofLine (a ++ w' ++ b) := by
  refine ⟨fun v line w hv hw => ?_, fun line => ?_, fun a w w' b ha hw hne hw' hne' => ?_⟩
  · refine ofLine_congr ?_
    rw [String.toList_append, String.toList_append]
    exact stream_between hv hw line.toList
  · obtain ⟨v, w, hv, hw, hline⟩ := Lexer.exists_trimChars line.toList
    refine ofLine_congr ?_
    rw [Text.trim, String.toList_ofList]
    conv_rhs => rw [hline]
    exact (stream_between hv hw _).symm
  · have parted {u : String} (hu : AllBlank u.toList) (hne : u ≠ "") :
        stream plain (a ++ u ++ b).toList = stream plain a.toList ++ stream plain b.toList := by
      rw [String.toList_append, String.toList_append]
      exact stream_apart hu (by simpa using hne) ha b.toList
    exact ⟨parted hw hne, ofLine_congr ((parted hw hne).trans (parted hw' hne').symm)⟩

/-- Blanks behind an open quote change nothing, and two operators that a blank parts are not one. -/
theorem ofLine_spacing_operators :
    ofLine ("\t" ++ "echo 'x" ++ " ") = ofLine "echo 'x" ∧
      stream plain ("echo >" ++ "\u3000" ++ "> o").toList =
        [.ok (.word "echo"), .ok (.operator .output), .ok (.operator .output), .ok (.word "o")] ∧
      ofLine ("echo >" ++ "\u3000" ++ "> o") = ofLine ("echo >" ++ " \t" ++ "> o") := by
  have hfront : stream plain "echo >".toList = [.ok (.word "echo"), .ok (.operator .output)] := by
    cbv
  have hback : stream plain "> o".toList = [.ok (.operator .output), .ok (.word "o")] := by cbv
  have hends : ReadsToEnd "echo >".toList :=
    { noError := by rw [hfront]; simp
      noComment := Lexer.not_meetsComment_of_notMem (by decide) }
  obtain ⟨hstream, hsame⟩ := ofLine_spacing.2.2 "echo >" "\u3000" " \t" "> o" hends
    (by decide) (by decide) (by decide) (by decide)
  rw [hfront, hback] at hstream
  exact ⟨ofLine_spacing.1 "\t" "echo 'x" " " (by decide) (by decide), hstream, hsame⟩

end JobShell.Command
