import JobShell.Proofs.Command.Grammar
import JobShell.Proofs.Token.Rest

/-!
# Where the sign of a background command stands

A line is read as a command that the shell does not wait for if a `&` stands on it. The sign need
not be the last thing on the line: redirections may follow it, and nothing else may.

* `Redirects ts` says that the tokens are redirections, each with its file.
* `Sets line before after` takes such a line apart: the tokens in front of the sign make a command
  with it, and redirections follow.
* `Lexer.next_background` finds the sign on the line, right in front of what its reading leaves.
* `background_reaches_redirections` is the exact extent: which lines are read so, and that the sign
  is the last thing on the line, but for blanks and a comment, if and only if no redirection follows
  it.
-/

namespace JobShell

/-! ## 1. The sign -/

namespace Lexer

variable {cs : List Char}

/-- No doubled character means `&`. -/
theorem doubled?_ne_background (o : Operator) : o.doubled? ≠ some .background := by
  cases o <;> decide

theorem ofChar?_eq_background {c : Char} (h : Operator.ofChar? c = some .background) :
    c = '&' := by
  have hsymbol := Operator.symbol_of_ofChar? h
  have hlist : (Operator.background.symbol).toList = (String.singleton c).toList := by rw [hsymbol]
  simpa [Operator.symbol] using hlist.symm

/-- A single `&` takes one character. -/
theorem readOperator_background {c : Char} {o : Operator} {cs : List Char}
    (h : (readOperator c o cs).1 = .background) :
    o = .background ∧ (readOperator c o cs).2 = cs := by
  unfold readOperator at h ⊢
  split
  · rename_i d ds oo hdouble
    simp only [hdouble] at h
    by_cases hd : d = c
    · rw [if_pos hd] at h
      exact absurd (hdouble.trans (congrArg some h)) (doubled?_ne_background o)
    · rw [if_neg hd] at h
      rw [if_neg hd]
      exact ⟨h, rfl⟩
  · rename_i hsingle
    split at h
    · rename_i d ds oo hdouble
      exact absurd hdouble (hsingle d ds oo rfl)
    · exact ⟨h, rfl⟩

theorem readLexeme_background (h : (readLexeme plain cs).1 = .ok (.operator .background)) :
    cs = '&' :: (readLexeme plain cs).2 := by
  cases cs with
  | nil => cases h
  | cons c cs =>
    simp only [readLexeme] at h ⊢
    cases hop : Operator.ofChar? c with
    | some o =>
      simp only [hop, Except.ok.injEq, Token.operator.injEq] at h ⊢
      obtain ⟨rfl, hrest⟩ := readOperator_background h
      rw [hrest, ofChar?_eq_background hop]
    | none =>
      simp only [hop] at h
      split at h
      · cases h
      · split at h
        · cases h
        · cases h

/-- **A `&` that was read stands right in front of what the reading leaves.** -/
theorem next_background (h : (next plain cs).1 = .ok (.operator .background)) :
    '&' :: (next plain cs).2 <:+ cs := by
  rw [next_plain] at h ⊢
  rw [← readLexeme_background h]
  exact List.dropWhile_suffix _

end Lexer

/-! ## 2. Redirections -/

namespace Grammar

/-- The tokens are redirections, each with its file. -/
inductive Redirects : List Token → Prop
  | nil : Redirects []
  | file (toInput : Bool) (path : String) {ts : List Token} (h : Redirects ts) :
      Redirects (.operator (.redirection toInput) :: .word path :: ts)

variable {ts us before after : List Token} {R : Token → List Token → Prop}

/-- Only the operators that redirect stand among redirections. -/
theorem Redirects.operators (h : Redirects ts) {o : Operator} (ho : .operator o ∈ ts) :
    ∃ toInput, o = .redirection toInput := by
  induction h with
  | nil => cases ho
  | file toInput path h ih =>
    rcases List.mem_cons.1 ho with hhead | hrest
    · exact ⟨toInput, Token.operator.inj hhead⟩
    · rcases List.mem_cons.1 hrest with hword | hrest
      · cases hword
      · exact ih hrest

theorem Redirects.background_notMem (h : Redirects ts) : .operator .background ∉ ts := by
  intro hmem
  obtain ⟨toInput, htoInput⟩ := h.operators hmem
  exact background_ne_redirection toInput htoInput

theorem Redirects.files (h : Redirects ts) : Throughout HasFile ts := by
  induction h with
  | nil => trivial
  | file toInput path h ih => exact ⟨fun _ => ⟨path, _, rfl⟩, fun hr => (by cases hr), ih⟩

theorem Redirects.freeWords (h : Redirects ts) : Grammar.freeWords false ts = [] := by
  induction h with
  | nil => rfl
  | file toInput path h ih => rw [freeWords_file, ih]

/-- **Tokens are redirections if no word on them is free and each has its file.** -/
theorem redirects_of (hdelivers : ∀ t ∈ ts, Lexer.Delivers Lexer.plain t)
    (hoperators : ∀ o, .operator o ∈ ts → o = .input ∨ o = .output)
    (hfiles : Throughout HasFile ts) (hwords : freeWords false ts = []) : Redirects ts := by
  induction ts using redirection_induction with
  | nil => exact .nil
  | file toInput path ts ih =>
    have hrest {t : Token} (ht : t ∈ ts) :
        t ∈ .operator (.redirection toInput) :: .word path :: ts :=
      List.mem_cons_of_mem _ (List.mem_cons_of_mem _ ht)
    rw [freeWords_file] at hwords
    exact .file toInput path (ih (fun t ht => hdelivers t (hrest ht))
      (fun o ho => hoperators o (hrest ho)) hfiles.2.2 hwords)
  | noFile toInput ts hfile =>
    obtain ⟨path, rest, h⟩ := hfiles.1 (redirects_redirection toInput)
    exact absurd h (hfile path rest)
  | other t ts hfree ih =>
    cases t with
    | word w => cases hwords
    | blank s => cases (hdelivers _ List.mem_cons_self).2 rfl
    | endOfLine => exact absurd rfl (hdelivers _ List.mem_cons_self).1
    | operator o =>
      rcases hoperators o List.mem_cons_self with rfl | rfl
      · cases hfree
      · cases hfree

/-! ## 3. Tokens around the sign -/

/-- What is in front of the sign has its files if it has them without what is behind. -/
theorem files_append_background :
    Throughout HasFile (before ++ .operator .background :: after) ↔
      Throughout HasFile (before ++ [.operator .background]) ∧ Throughout HasFile after := by
  induction before with
  | nil =>
    have hsign (ts : List Token) : HasFile (.operator .background) ts := fun hr => by cases hr
    exact ⟨fun h => ⟨⟨hsign [], trivial⟩, h.2⟩, fun h => ⟨hsign after, h.2⟩⟩
  | cons t before ih =>
    have hhead : HasFile t (before ++ .operator .background :: after) ↔
        HasFile t (before ++ [.operator .background]) := by
      refine imp_congr_right fun _ => ?_
      cases before with
      | nil => simp
      | cons u before => simp
    rw [List.cons_append, List.cons_append, Throughout, Throughout, hhead, ih, and_assoc]

theorem freeWords_append_background (redirected : Bool) :
    freeWords redirected (before ++ .operator .background :: after) =
      freeWords redirected (before ++ [.operator .background]) ++ freeWords false after := by
  induction before generalizing redirected with
  | nil => cases redirected <;> rfl
  | cons t before ih =>
    cases redirected <;> cases t <;> simp [freeWords, ih]

/-- What is asked of the signs is asked of none where there is none. -/
theorem endsCommand_of_notMem (h : .operator .background ∉ ts) : Throughout EndsCommand ts := by
  induction ts with
  | nil => trivial
  | cons t ts ih =>
    obtain ⟨hhead, hrest⟩ := not_or.1 fun hmem => h (List.mem_cons.2 hmem)
    exact ⟨fun ht => absurd ht.symm hhead, ih hrest⟩

theorem endsCommand_append_background (hbefore : .operator .background ∉ before)
    (hafter : .operator .background ∉ after) :
    Throughout EndsCommand (before ++ .operator .background :: after) ↔
      freeWords false after = [] := by
  induction before with
  | nil => exact ⟨fun h => h.1 rfl, fun h => ⟨fun _ => h, endsCommand_of_notMem hafter⟩⟩
  | cons t before ih =>
    obtain ⟨hhead, hrest⟩ := not_or.1 fun hmem => hbefore (List.mem_cons.2 hmem)
    rw [← ih hrest]
    exact ⟨fun h => h.2, fun h => ⟨fun ht => absurd ht.symm hhead, h⟩⟩

/-- **What the tokens around the sign must be like.** -/
structure Sets (before after : List Token) : Prop where
  command : Grammatical (before ++ [.operator .background])
  redirections : Redirects after
  /-- No redirection is made twice, on whichever side of the sign. -/
  once : ∀ toInput, (before ++ after).count (.operator (.redirection toInput)) ≤ 1

theorem count_around (toInput : Bool) :
    (before ++ .operator .background :: after).count (.operator (.redirection toInput)) =
      (before ++ after).count (.operator (.redirection toInput)) := by
  have hsign : ¬ Operator.background = .redirection toInput := background_ne_redirection toInput
  simp only [List.count_append, count_operator, hsign, if_false, Nat.add_zero]

theorem Sets.background_notMem (h : Sets before after) : .operator .background ∉ before := by
  have honce := h.command.backgroundOnce
  rw [List.count_append, List.count_singleton_self] at honce
  exact List.count_eq_zero.1 (by omega)

/-- Tokens that are set around the sign are grammatical. -/
theorem Sets.grammatical (h : Sets before after) :
    Grammatical (before ++ .operator .background :: after) := by
  have hbefore : .operator .background ∉ before := h.background_notMem
  have hafter : .operator .background ∉ after := h.redirections.background_notMem
  have hwords : freeWords false after = [] := h.redirections.freeWords
  exact
    { operators := fun o ho => by
        rcases List.mem_append.1 ho with hfront | hrest
        · exact h.command.operators o (List.mem_append_left _ hfront)
        · rcases List.mem_cons.1 hrest with hsign | hback
          · exact Or.inr (Or.inr (Token.operator.inj hsign))
          · obtain ⟨toInput, rfl⟩ := h.redirections.operators hback
            cases toInput
            · exact Or.inr (Or.inl rfl)
            · exact Or.inl rfl
      files := files_append_background.2 ⟨h.command.files, h.redirections.files⟩
      inputOnce := (count_around true).trans_le (h.once true)
      outputOnce := (count_around false).trans_le (h.once false)
      backgroundOnce := by
        rw [List.count_append, List.count_eq_zero.2 hbefore, List.count_cons_self,
          List.count_eq_zero.2 hafter]
      backgroundLast := (endsCommand_append_background hbefore hafter).2 hwords
      program := by
        have hprogram := h.command.program
        rw [freeWords_append_background, hwords, List.append_nil]
        exact Or.inr (hprogram.resolve_left (by simp)) }

/-- **Grammatical tokens are set around each sign on them.** -/
theorem Grammatical.sets (h : Grammatical (before ++ .operator .background :: after))
    (hdelivers : ∀ t ∈ after, Lexer.Delivers Lexer.plain t) : Sets before after := by
  have honce := h.backgroundOnce
  rw [List.count_append, List.count_cons_self] at honce
  have hbefore : .operator .background ∉ before := List.count_eq_zero.1 (by omega)
  have hafter : .operator .background ∉ after := List.count_eq_zero.1 (by omega)
  have hwords : freeWords false after = [] :=
    (endsCommand_append_background hbefore hafter).1 h.backgroundLast
  obtain ⟨hfiles, hfilesAfter⟩ := files_append_background.1 h.files
  have hfront {t : Token} (ht : t ∈ before ++ [.operator .background]) :
      t ∈ before ++ .operator .background :: after := by
    rcases List.mem_append.1 ht with hmem | hsign
    · exact List.mem_append_left _ hmem
    · exact List.mem_append_right _ (List.mem_singleton.1 hsign ▸ List.mem_cons_self)
  have hredirects : Redirects after := by
    refine redirects_of hdelivers (fun o ho => ?_) hfilesAfter hwords
    have hmem : Token.operator o ∈ before ++ .operator .background :: after :=
      List.mem_append_right _ (List.mem_cons_of_mem _ ho)
    rcases h.operators o hmem with hin | hout | rfl
    · exact Or.inl hin
    · exact Or.inr hout
    · exact absurd ho hafter
  have hcount (toInput : Bool) :
      (before ++ after).count (.operator (.redirection toInput)) ≤ 1 := by
    rw [← count_around]
    cases toInput
    · exact h.outputOnce
    · exact h.inputOnce
  have hcountFront (toInput : Bool) :
      (before ++ [Token.operator .background]).count (.operator (.redirection toInput)) ≤ 1 := by
    have hboth := hcount toInput
    rw [List.count_append] at hboth
    rw [count_around, List.append_nil]
    omega
  have hcommand : Grammatical (before ++ [.operator .background]) :=
    { operators := fun o ho => h.operators o (hfront ho)
      files := hfiles
      inputOnce := hcountFront true
      outputOnce := hcountFront false
      backgroundOnce := by
        rw [List.count_append, List.count_eq_zero.2 hbefore, List.count_singleton_self]
      backgroundLast := (endsCommand_append_background hbefore (by simp)).2 rfl
      program := by
        have hprogram := h.program.resolve_left (by simp)
        rw [freeWords_append_background, hwords, List.append_nil] at hprogram
        exact Or.inr hprogram }
  exact ⟨hcommand, hredirects, hcount⟩

end Grammar

/-! ## 4. Lines -/

open Grammar

/-- **The lines that are read as a command**: those whose tokens are grammatical, and not none. -/
theorem Command.ofLine_eq_some_iff {line : String} {c : Command} :
    Command.ofLine line = .ok (some c) ↔
      ∃ ts, Lexer.stream Lexer.plain line.toList = ts.map .ok ∧ Grammatical ts ∧ ts ≠ [] ∧
        c = command ts := by
  rw [ofLine_eq_goOn]
  constructor
  · intro hline
    obtain ⟨ts, hts, hstream | hstream⟩ := Lexer.stream_shape Lexer.plain line.toList
    · rw [hstream] at hline
      by_cases h : Grammatical ts
      · rw [goOn_of_grammatical h hts] at hline
        by_cases hempty : ts = []
        · rw [if_pos hempty] at hline
          cases hline
        · rw [if_neg hempty] at hline
          exact ⟨ts, hstream, h, hempty, (Option.some.inj (Except.ok.inj hline)).symm⟩
      · obtain ⟨e, he⟩ := goOn_of_not_grammatical h hts
        rw [he] at hline
        cases hline
    · obtain ⟨e, he⟩ := goOn_open_quote hts .unclosedQuote
      rw [hstream, he] at hline
      cases hline
  · rintro ⟨ts, hstream, h, hempty, rfl⟩
    rw [hstream, goOn_of_grammatical h (Lexer.delivers_of_stream hstream), if_neg hempty]

/-- What is left of a line behind a `&` that so many tokens stand in front of. -/
def Lexer.afterSign (before : List Token) (line : String) : List Char :=
  Lexer.behind Lexer.plain (before.length + 1) line.toList

/-- **The lines that are read as a command in the background**, and where the sign stands on them:
the tokens in front of it make a command with it, the tokens behind it are redirections with their
files, and no redirection is made twice. So the sign is the last thing on the line, but for blanks
and a comment, if and only if no redirection follows it. -/
theorem background_reaches_redirections (line : String) (c : Command) :
    (Command.ofLine line = .ok (some c) ∧ c.background = true ↔
        ∃ before after, Sets before after ∧
          Lexer.stream Lexer.plain line.toList =
            (before ++ .operator .background :: after).map .ok ∧
          c = command (before ++ .operator .background :: after)) ∧
      ∀ before after, Sets before after →
        Lexer.stream Lexer.plain line.toList =
          (before ++ .operator .background :: after).map .ok →
        '&' :: Lexer.afterSign before line <:+ line.toList ∧
          (Lexer.SaysNothing (Lexer.afterSign before line) ↔ after = []) := by
  refine ⟨⟨?_, ?_⟩, ?_⟩
  · rintro ⟨hline, hback⟩
    obtain ⟨ts, hstream, h, -, rfl⟩ := Command.ofLine_eq_some_iff.1 hline
    have hsign : .operator .background ∈ ts := of_decide_eq_true hback
    obtain ⟨before, after, rfl⟩ := List.append_of_mem hsign
    refine ⟨before, after, h.sets fun t ht => ?_, hstream, rfl⟩
    exact Lexer.delivers_of_stream hstream t (List.mem_append_right _ (List.mem_cons_of_mem _ ht))
  · rintro ⟨before, after, h, hstream, rfl⟩
    refine ⟨Command.ofLine_eq_some_iff.2 ⟨_, hstream, h.grammatical, by simp, rfl⟩, ?_⟩
    exact decide_eq_true (List.mem_append_right _ List.mem_cons_self)
  · intro before after _ hstream
    let front := Lexer.behind Lexer.plain before.length line.toList
    have hfront : Lexer.stream Lexer.plain front =
        .ok (.operator .background) :: after.map .ok := by
      have hcut := hstream
      rw [List.map_append, List.map_cons] at hcut
      have hlength : (before.map (.ok : Token → Lexer.Item)).length = before.length :=
        List.length_map _
      rw [← Lexer.stream_behind hcut, hlength]
    obtain ⟨hsign, hrest⟩ := Lexer.next_of_stream hfront
    have hafter : Lexer.afterSign before line = (Lexer.next Lexer.plain front).2 :=
      Lexer.behind_succ _ _ _
    rw [hafter]
    refine ⟨(Lexer.next_background hsign).trans (Lexer.behind_suffix _ _ _), ?_⟩
    rw [← Lexer.stream_plain_eq_nil_iff, hrest, List.map_eq_nil_iff]

/-- A line that goes on behind the sign: a quoted sign is a word, the sign is followed by a file for
the input, and a comment ends the line. -/
theorem background_reaches_redirections_sort :
    Command.ofLine "sort '&' & < i # end" = .ok (some ⟨["sort", "&"], some "i", none, true⟩) ∧
      Lexer.afterSign [.word "sort", .word "&"] "sort '&' & < i # end" = " < i # end".toList ∧
      ¬ Lexer.SaysNothing (Lexer.afterSign [.word "sort", .word "&"] "sort '&' & < i # end") := by
  have hstream : Lexer.stream Lexer.plain "sort '&' & < i # end".toList =
      (([.word "sort", .word "&"] : List Token) ++
        .operator .background :: ([.operator .input, .word "i"] : List Token)).map .ok := by cbv
  have hsets : Sets [.word "sort", .word "&"] [.operator .input, .word "i"] :=
    { command :=
        { operators := by simp
          files := by simp [Throughout, HasFile, Token.redirects]
          inputOnce := by decide
          outputOnce := by decide
          backgroundOnce := by decide
          backgroundLast := by simp [Throughout, EndsCommand, freeWords]
          program := by decide }
      redirections := .file true "i" .nil
      once := by decide }
  obtain ⟨hlines, hplace⟩ := background_reaches_redirections "sort '&' & < i # end"
    ⟨["sort", "&"], some "i", none, true⟩
  refine ⟨(hlines.2 ⟨_, _, hsets, hstream, by decide⟩).1, by cbv, fun hnothing => ?_⟩
  have hnone : [Token.operator .input, .word "i"] = [] := (hplace _ _ hsets hstream).2.1 hnothing
  cases hnone

end JobShell
