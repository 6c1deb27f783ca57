import JobShell.Proofs.Command.Grammar
import JobShell.Proofs.Token.Modes

/-!
# Commands with their marks

A command can be read from the reading of a line that keeps blanks and quote marks, too. It is the
same command, but for the marks, unless a redirection is parted from its file: there the parser
finds the blank in place of the file.

* `Command.ofLineIn m line` is the command that a line asks for when it is read in a mode, and
  `Command.bare` is a command without the quote marks in its words.
* `Unparted t after` says that no blank and no comment stands right behind a redirection.
* `Agrees c ts tail` compares what comes of reading on over the tokens `ts` as they are and without
  marks; `goOn_agrees` says that it is always so, by induction along the tokens.
* `ofLineIn_highlight` is the outcome for lines.
-/

namespace JobShell

open Lexer (Item Mode dropMarks bareToken)

/-! ## 1. Without marks -/

/-- A word without the quote marks that open and close its quoted parts. -/
def Lexer.bareText (w : String) : String := String.ofList (dropMarks none w.toList)

open Lexer (bareText)

/-- A command without the quote marks in its words. -/
def Command.bare (c : Command) : Command where
  args := c.args.map bareText
  infile := c.infile.map bareText
  outfile := c.outfile.map bareText
  background := c.background

/-- What reading a command gives, without the quote marks in its words. -/
def Parsed.bare (r : Parsed) : Parsed := r.map (Option.map Command.bare)

/-- The command that a line asks for when it is read in a mode. -/
def Command.ofLineIn (m : Mode) (line : String) : Parsed :=
  match Parser.ofLine m line with
  | .ok p => p.parse.1
  | .error e => .error e

theorem Command.ofLineIn_plain (line : String) : ofLineIn Lexer.plain line = ofLine line := rfl

namespace Grammar

/-- Neither a blank nor a comment stands right behind a redirection. -/
def Unparted (t : Token) (after : List Token) : Prop :=
  t.redirects = true → ∀ s rest, after ≠ .blank s :: rest

theorem unparted_cons_iff {t : Token} (h : t.redirects = false) (ts : List Token) :
    Throughout Unparted (t :: ts) ↔ Throughout Unparted ts := by
  rw [Throughout, and_iff_right_iff_imp]
  intro _ hr
  rw [h] at hr
  cases hr

theorem unparted_file_iff (o : Operator) (path : String) (ts : List Token) :
    Throughout Unparted (.operator o :: .word path :: ts) ↔ Throughout Unparted ts := by
  have hword : (Token.word path).redirects = false := rfl
  rw [Throughout, unparted_cons_iff hword, and_iff_right_iff_imp]
  intro _ _ s rest h
  cases h

theorem not_unparted_blank (toInput : Bool) (s : String) (ts : List Token) :
    ¬ Throughout Unparted (.operator (.redirection toInput) :: .blank s :: ts) := by
  intro h
  exact h.1 (redirects_redirection toInput) s ts rfl

end Grammar

namespace Parser

open Grammar

/-! ## 2. Reading on -/

/-- What a token asks for, without the quote marks in what has been read. -/
def Demand.bare : Demand → Demand
  | advance c => advance c.bare
  | d => d

section Steps

variable {t : Token}

theorem target?_bare (c : Command) (toInput : Bool) :
    target? c.bare toInput = (target? c toInput).map bareText := by
  cases toInput <;> rfl

theorem bare_withTarget (c : Command) (toInput : Bool) (path : String) :
    (withTarget c toInput path).bare = withTarget c.bare toInput (bareText path) := by
  cases toInput <;> rfl

theorem bare_finish (c : Command) : Parsed.bare (finish c) = finish c.bare := by
  have hargs : c.bare.args.isEmpty = c.args.isEmpty := List.isEmpty_map
  have hfiles : (c.bare.infile.isSome || c.bare.outfile.isSome || c.bare.background) =
      (c.infile.isSome || c.outfile.isSome || c.background) := by
    simp [Command.bare]
  unfold finish
  rw [hargs, hfiles]
  split
  · split <;> rfl
  · rfl

/-- A token asks for the same with its marks and without. -/
theorem demand_bare {u : Token} (ht : bareToken t = some u) (c : Command) :
    demand c.bare u = (demand c t).bare := by
  cases t with
  | blank s => cases ht
  | endOfLine =>
    cases ht
    rfl
  | word w =>
    cases ht
    cases hback : c.background <;> simp [demand, Demand.bare, Command.bare, bareText, hback]
  | operator o =>
    cases ht
    cases o with
    | background => cases hback : c.background <;> simp [demand, Demand.bare, Command.bare, hback]
    | _ => rfl

end Steps

/-- How reading on over the tokens `ts` turns out with marks and without, whatever has been read:
the same if no blank stands behind a redirection; otherwise the parser misses the file of a
redirection, or would have refused the tokens in any case. -/
structure Agrees (c : Command) (ts : List Token) (tail : List Item) : Prop where
  unparted : Throughout Unparted ts →
    Parsed.bare (goOn c (ts.map .ok ++ tail)) =
      goOn c.bare ((ts.filterMap bareToken).map .ok ++ tail)
  parted : ¬ Throughout Unparted ts →
    goOn c (ts.map .ok ++ tail) = .error .missingTarget ∨
      ∃ e, goOn c.bare ((ts.filterMap bareToken).map .ok ++ tail) = .error e

section Agreements

variable {c c' : Command} {t : Token} {ts us : List Token} {tail : List Item} {toInput : Bool}

/-- Where both readings go on alike, they agree if they do from there. -/
theorem Agrees.goesOn (h : Agrees c' us tail)
    (hunparted : Throughout Unparted ts ↔ Throughout Unparted us)
    (hgo : goOn c (ts.map .ok ++ tail) = goOn c' (us.map .ok ++ tail))
    (hbare : goOn c.bare ((ts.filterMap bareToken).map .ok ++ tail) =
      goOn c'.bare ((us.filterMap bareToken).map .ok ++ tail)) : Agrees c ts tail := by
  constructor
  · intro hts
    rw [hgo, hbare]
    exact h.unparted (hunparted.1 hts)
  · intro hts
    rw [hgo, hbare]
    exact h.parted fun hus => hts (hunparted.2 hus)

theorem agrees_of_error {e : SyntaxError} (hgo : goOn c (ts.map .ok ++ tail) = .error e)
    (hbare : goOn c.bare ((ts.filterMap bareToken).map .ok ++ tail) = .error e) :
    Agrees c ts tail := by
  constructor
  · intro _
    rw [hgo, hbare]
    rfl
  · exact fun _ => .inr ⟨e, hbare⟩

theorem agrees_nil (htail : tail = [] ∨ ∃ e, tail = [.error e]) : Agrees c [] tail := by
  rcases htail with rfl | ⟨e, rfl⟩
  · exact ⟨fun _ => bare_finish c, fun h => absurd trivial h⟩
  · exact agrees_of_error rfl rfl

theorem agrees_blank (s : String) (h : Agrees c ts tail) : Agrees c (.blank s :: ts) tail :=
  h.goesOn (unparted_cons_iff rfl ts) (goOn_of_advance rfl _) rfl

/-- A token that does not redirect is read alike with marks and without. -/
theorem agrees_token {u : Token} (ht : bareToken t = some u) (hfree : t.redirects = false)
    (hend : t ≠ .endOfLine) (h : ∀ c, Agrees c ts tail) : Agrees c (t :: ts) tail := by
  have hdemand := demand_bare ht c
  have hbare : ((t :: ts).filterMap bareToken).map .ok ++ tail =
      .ok u :: ((ts.filterMap bareToken).map .ok ++ tail) := by
    rw [List.filterMap_cons_some ht]
    rfl
  cases hd : demand c t with
  | advance c' =>
    rw [hd] at hdemand
    refine (h c').goesOn (unparted_cons_iff hfree ts) (goOn_of_advance hd _) ?_
    rw [hbare]
    exact goOn_of_advance hdemand _
  | refuse e =>
    rw [hd] at hdemand
    refine agrees_of_error (goOn_of_refuse hd _) ?_
    rw [hbare]
    exact goOn_of_refuse hdemand _
  | finish => exact absurd (eq_endOfLine_of_finish hd) hend
  | redirect toInput =>
    rw [eq_redirection_of_redirect hd, redirects_redirection] at hfree
    cases hfree

/-- A redirection with its file is read alike with marks and without. -/
theorem agrees_file (path : String) (h : ∀ c, Agrees c ts tail) :
    Agrees c (.operator (.redirection toInput) :: .word path :: ts) tail := by
  by_cases hfree : target? c toInput = none
  · have hbareFree : target? c.bare toInput = none := by rw [target?_bare, hfree]; rfl
    refine (h (withTarget c toInput path)).goesOn (unparted_file_iff _ path ts)
      (goOn_file hfree path _) ?_
    rw [bare_withTarget]
    exact goOn_file hbareFree (bareText path) _
  · have hbareTaken : target? c.bare toInput ≠ none := by
      rw [target?_bare, Ne, Option.map_eq_none_iff]
      exact hfree
    exact agrees_of_error (goOn_second_file hfree path _)
      (goOn_second_file hbareTaken (bareText path) _)

/-- A redirection at the end of the tokens has no file, with marks or without. -/
theorem agrees_last (htail : tail = [] ∨ ∃ e, tail = [.error e]) :
    Agrees c [.operator (.redirection toInput)] tail := by
  rcases htail with rfl | ⟨e, rfl⟩
  · exact agrees_of_error (goOn_missing_file (by simp) (by simp))
      (goOn_missing_file (by simp) (by simp))
  · exact agrees_of_error (goOn_failed_file e []) (goOn_failed_file e [])

/-- No operator names a file, with marks or without. -/
theorem agrees_operator (o : Operator) :
    Agrees c (.operator (.redirection toInput) :: .operator o :: ts) tail :=
  agrees_of_error (goOn_missing_file (by simp) (by simp))
    (goOn_missing_file (by simp [bareToken]) (by simp [bareToken]))

/-- Where a blank stands behind a redirection, the blank is taken for its file. -/
theorem agrees_parted (s : String) :
    Agrees c (.operator (.redirection toInput) :: .blank s :: ts) tail :=
  ⟨fun h => absurd h (not_unparted_blank toInput s ts),
    fun _ => .inl (goOn_missing_file (by simp) (by simp))⟩

end Agreements

/-- **Tokens are read alike with marks and without.** The induction goes along the tokens. -/
theorem goOn_agrees (c : Command) (ts : List Token) (hts : ∀ t ∈ ts, t ≠ .endOfLine)
    (tail : List Item) (htail : tail = [] ∨ ∃ e, tail = [.error e]) : Agrees c ts tail := by
  induction ts using redirection_induction generalizing c with
  | nil => exact agrees_nil htail
  | file toInput path ts ih =>
    have hrest : ∀ t ∈ ts, t ≠ .endOfLine := fun t ht =>
      hts t (List.mem_cons_of_mem _ (List.mem_cons_of_mem _ ht))
    exact agrees_file path fun c' => ih c' hrest
  | noFile toInput ts hfile =>
    obtain ⟨-, hrest⟩ := List.forall_mem_cons.1 hts
    cases ts with
    | nil => exact agrees_last htail
    | cons t ts =>
      cases t with
      | word path => exact absurd rfl (hfile path ts)
      | operator o => exact agrees_operator o
      | blank s => exact agrees_parted s
      | endOfLine => exact absurd rfl (hrest _ List.mem_cons_self)
  | other t ts hfree ih =>
    obtain ⟨ht, hrest⟩ := List.forall_mem_cons.1 hts
    have next (c' : Command) : Agrees c' ts tail := ih c' hrest
    cases t with
    | word w => exact agrees_token rfl rfl ht next
    | blank s => exact agrees_blank s (next c)
    | endOfLine => exact absurd rfl ht
    | operator o => exact agrees_token rfl hfree ht next

end Parser

/-! ## 3. Lines -/

namespace Command

open Grammar JobShell.Parser

theorem ofLineIn_eq_goOn (m : Mode) (line : String) :
    ofLineIn m line = goOn {} (Lexer.stream m line.toList) :=
  goOn_start _

/-- What a line reads as without marks is what it reads as plainly. -/
theorem agrees_line (line : String) :
    (Throughout Unparted (Lexer.tokens Lexer.highlight line) →
        Parsed.bare (ofLineIn Lexer.highlight line) = ofLineIn Lexer.plain line) ∧
      (¬ Throughout Unparted (Lexer.tokens Lexer.highlight line) →
        ofLineIn Lexer.highlight line = .error .missingTarget ∨
          ∃ e, ofLineIn Lexer.plain line = .error e) := by
  have hts : ∀ t ∈ Lexer.tokens Lexer.highlight line, t ≠ .endOfLine :=
    fun t ht => (Lexer.delivers_of_mem_tokens ht).1
  have hbare := Lexer.filterMap_bare_stream line.toList
  rw [ofLineIn_eq_goOn, ofLineIn_eq_goOn, ← hbare]
  rcases Lexer.stream_eq_tokens Lexer.highlight line with hstream | hstream
  · have h := goOn_agrees {} _ hts [] (.inl rfl)
    rw [hstream, Lexer.filterMap_bare_map_ok]
    have hj := h.unparted
    have hp := h.parted
    rw [List.append_nil, List.append_nil] at hj hp
    exact ⟨hj, hp⟩
  · have h := goOn_agrees {} _ hts [.error .unclosedQuote] (.inr ⟨_, rfl⟩)
    rw [hstream, List.filterMap_append, Lexer.filterMap_bare_map_ok]
    exact ⟨h.unparted, h.parted⟩

/-- **A command read with its marks is the same command**, but for the marks, if neither a blank nor
a comment stands right behind a redirection: the two readings fail alike, find nothing alike, or
give commands that differ in quote marks only. A line that is accepted plainly and parts a
redirection from its file is refused for that when it is read with its marks. -/
theorem ofLineIn_highlight (line : String) :
    (Throughout Unparted (Lexer.tokens Lexer.highlight line) →
        Parsed.bare (ofLineIn Lexer.highlight line) = ofLine line) ∧
      (¬ Throughout Unparted (Lexer.tokens Lexer.highlight line) → (∃ r, ofLine line = .ok r) →
        ofLineIn Lexer.highlight line = .error .missingTarget) := by
  obtain ⟨hunparted, hparted⟩ := agrees_line line
  rw [ofLineIn_plain] at hunparted hparted
  refine ⟨hunparted, fun hline => ?_⟩
  rintro ⟨r, hr⟩
  refine (hparted hline).resolve_right ?_
  rintro ⟨e, he⟩
  rw [hr] at he
  cases he

/-- A redirection with its file right behind it, and the same with a blank in between. -/
theorem ofLineIn_highlight_marks :
    Parsed.bare (ofLineIn Lexer.highlight "'so'rt <\"i n\" & >o") =
        .ok (some ⟨["sort"], some "i n", some "o", true⟩) ∧
      ofLineIn Lexer.highlight "'so'rt < \"i n\" & >o" = .error .missingTarget := by
  constructor
  · have hunparted : Throughout Unparted (Lexer.tokens Lexer.highlight "'so'rt <\"i n\" & >o") := by
      have htokens : Lexer.tokens Lexer.highlight "'so'rt <\"i n\" & >o" =
          [.word "'so'rt", .blank " ", .operator .input, .word "\"i n\"", .blank " ",
            .operator .background, .blank " ", .operator .output, .word "o"] := by cbv
      rw [htokens]
      simp [Throughout, Unparted, Token.redirects]
    rw [(ofLineIn_highlight _).1 hunparted]
    cbv
  · have hparted :
        ¬ Throughout Unparted (Lexer.tokens Lexer.highlight "'so'rt < \"i n\" & >o") := by
      have htokens : Lexer.tokens Lexer.highlight "'so'rt < \"i n\" & >o" =
          [.word "'so'rt", .blank " ", .operator .input, .blank " ", .word "\"i n\"", .blank " ",
            .operator .background, .blank " ", .operator .output, .word "o"] := by cbv
      rw [htokens]
      simp [Throughout, Unparted, Token.redirects]
    exact (ofLineIn_highlight _).2 hparted
      ⟨some ⟨["sort"], some "i n", some "o", true⟩, by cbv⟩

end Command

end JobShell
