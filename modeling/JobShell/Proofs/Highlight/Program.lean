import JobShell.Proofs.Command.Background
import JobShell.Proofs.Command.Marked
import JobShell.Proofs.Highlight.Lossless

/-!
# The word that is coloured as the program

The first word of a line is coloured as the program. That is the program that the line runs, unless
the line begins with a redirection: then it is the file, and the program behind it has no colour.
The colour is chosen by the word with its quote marks, so a built-in is known by it only where it is
written without any.

* `FirstWord ts before w after` takes the tokens of a line apart at their first word.
* `paintAll_firstWord` says that this word, and no other, is coloured as a program.
* `Grammatical.opening` says what the tokens of a command begin with.
* `commandColour_eq_builtin_iff` tells which words have the colour of a built-in.
* `highlight_program` is the outcome for lines.
-/

namespace JobShell

open Lexer (Delivers bareText bareToken)

/-- The tokens `ts` are the word `w` between others, and no word stands in front of it. -/
structure FirstWord (ts before : List Token) (w : String) (after : List Token) : Prop where
  split : ts = before ++ .word w :: after
  first : ∀ v, .word v ∉ before

/-! ## 1. Tokens -/

/-- A word without marks is a word with its marks, too. -/
theorem Lexer.exists_word_of_bare {ts : List Token} {v : String}
    (h : .word v ∈ ts.filterMap bareToken) : ∃ u, .word u ∈ ts := by
  obtain ⟨t, ht, hbare⟩ := List.mem_filterMap.1 h
  cases t with
  | word u => exact ⟨u, ht⟩
  | blank s => cases hbare
  | endOfLine => cases hbare
  | operator o => cases hbare

/-- Without marks, the first word is the first one still. -/
theorem FirstWord.bare {ts before after : List Token} {w : String}
    (h : FirstWord ts before w after) :
    FirstWord (ts.filterMap bareToken) (before.filterMap bareToken) (bareText w)
      (after.filterMap bareToken) := by
  constructor
  · rw [h.split, List.filterMap_append]
    rfl
  · intro v hv
    obtain ⟨u, hu⟩ := Lexer.exists_word_of_bare hv
    exact h.first u hu

namespace Grammar

variable {ts before after : List Token} {w : String}

theorem exists_firstWord (h : ∃ v, .word v ∈ ts) :
    ∃ before w after, FirstWord ts before w after := by
  induction ts with
  | nil =>
    obtain ⟨v, hv⟩ := h
    cases hv
  | cons t ts ih =>
    cases t with
    | word w => exact ⟨[], w, ts, rfl, by simp⟩
    | _ =>
      obtain ⟨before, w, after, hsplit, hfirst⟩ := ih (by simpa using h)
      exact ⟨_ :: before, w, after, by rw [hsplit]; rfl, by simpa using hfirst⟩

/-- **A command begins with its program, or with a redirection and its file.** -/
theorem Grammatical.opening (h : Grammatical ts) (hts : ∀ t ∈ ts, Delivers Lexer.plain t)
    (hne : ts ≠ []) :
    ∃ w after, ts = .word w :: after ∨
      ∃ toInput, ts = .operator (.redirection toInput) :: .word w :: after := by
  have hprogram : freeWords false ts ≠ [] := h.program.resolve_left hne
  cases ts with
  | nil => exact absurd rfl hne
  | cons t ts =>
    have ht := hts t List.mem_cons_self
    cases t with
    | word w => exact ⟨w, ts, Or.inl rfl⟩
    | blank s => cases ht.2 rfl
    | endOfLine => exact absurd rfl ht.1
    | operator o =>
      rcases (grammatical_iff.1 h).1.head with rfl | ⟨toInput, w, after, rfl, rfl⟩
      · exact absurd (h.backgroundLast.1 rfl) hprogram
      · exact ⟨w, after, Or.inr ⟨toInput, rfl⟩⟩

/-- The tokens of a command around their first word. -/
theorem Grammatical.around_firstWord (h : Grammatical ts) (hts : ∀ t ∈ ts, Delivers Lexer.plain t)
    (hfirst : FirstWord ts before w after) :
    before = [] ∨ ∃ toInput, before = [.operator (.redirection toInput)] := by
  obtain ⟨hsplit, hno⟩ := hfirst
  have hne : ts ≠ [] := by rw [hsplit]; simp
  obtain ⟨v, rest, hword | ⟨toInput, hfile⟩⟩ := h.opening hts hne
  · cases before with
    | nil => exact Or.inl rfl
    | cons t before =>
      rw [hsplit] at hword
      refine absurd ?_ (hno v)
      rw [← (List.cons.inj hword).1]
      exact List.mem_cons_self
  · rw [hsplit] at hfile
    cases before with
    | nil => cases hfile
    | cons t before =>
      obtain ⟨rfl, hrest⟩ := List.cons.inj hfile
      cases before with
      | nil => exact Or.inr ⟨toInput, rfl⟩
      | cons u before =>
        refine absurd ?_ (hno v)
        rw [← (List.cons.inj hrest).1]
        exact List.mem_cons_of_mem _ List.mem_cons_self

end Grammar

namespace Highlight

open Grammar JobShell.Parser
open Lexer (tokens)

/-! ## 2. Colours -/

/-- Behind the first word, no word is coloured. -/
theorem paintAll_false {ts : List Token} (hts : ∀ t ∈ ts, t ≠ .endOfLine) :
    paintAll false (ts.map .ok) = some (ts.flatMap (shown false)) := by
  induction ts with
  | nil => rfl
  | cons t ts ih =>
    obtain ⟨ht, hts⟩ := List.forall_mem_cons.1 hts
    have hstill : stillAtCommand false t = false := by cases t <;> rfl
    rw [List.map_cons, paintAll_cons ht, hstill, ih hts]
    rfl

/-- **The first word, and no other, is coloured as a program.** -/
theorem paintAll_firstWord {ts before after : List Token} {w : String}
    (hts : ∀ t ∈ ts, t ≠ .endOfLine) (h : FirstWord ts before w after) :
    paintAll true (ts.map .ok) =
      some (before.flatMap (shown false) ++ (commandColour w).paint w.toList ++
        after.flatMap (shown false)) := by
  obtain ⟨rfl, hfirst⟩ := h
  induction before with
  | nil =>
    obtain ⟨hword, hafter⟩ := List.forall_mem_cons.1 hts
    rw [List.nil_append, List.map_cons, paintAll_cons hword, stillAtCommand, paintAll_false hafter]
    rfl
  | cons t before ih =>
    obtain ⟨ht, hrest⟩ := List.forall_mem_cons.1 hts
    have hno : ∀ v, t ≠ .word v := fun v hv => hfirst v (hv ▸ List.mem_cons_self)
    have hothers : ∀ v, .word v ∉ before := fun v hv => hfirst v (List.mem_cons_of_mem _ hv)
    have hstill : stillAtCommand true t = true := by
      cases t with
      | word v => exact absurd rfl (hno v)
      | _ => rfl
    have hshown : shown true t = shown false t := by
      cases t with
      | word v => exact absurd rfl (hno v)
      | _ => rfl
    rw [List.cons_append, List.map_cons, paintAll_cons ht, hstill, hshown,
      ih hothers hrest]
    simp only [Option.map_some, List.flatMap_cons, List.append_assoc]

/-- The name of a built-in holds no quote marks. -/
theorem bareText_of_ofName? {w : String} {b : Builtin} (h : Builtin.ofName? w = some b) :
    bareText w = w := by
  rw [Builtin.ofName?_eq_some_iff] at h
  subst h
  cases b <;> decide

/-- **A word has the colour of a built-in if it is the name of one, written without marks.** -/
theorem commandColour_eq_builtin_iff {w : String} :
    commandColour w = .builtin ↔ (Builtin.ofName? (bareText w)).isSome = true ∧ bareText w = w := by
  unfold commandColour
  cases hname : Builtin.ofName? w with
  | some b =>
    have hbare := bareText_of_ofName? hname
    simp [hbare, hname]
  | none =>
    refine iff_of_false (by simp) ?_
    rintro ⟨hsome, hbare⟩
    rw [hbare, hname] at hsome
    cases hsome

/-! ## 3. Lines -/

/-- **Which word is coloured as the program of a command.** On a line that is read as a command it
is the first word, and there is one. If no operator stands in front of it, it is the program, but
for its quote marks, and it has the colour of a built-in exactly if it names one and has no marks.
Otherwise it is the file of a redirection, and the program is still to come. -/
theorem highlight_program {line : String} {c : Command} (h : Command.ofLine line = .ok (some c)) :
    (∃ before w after, FirstWord (tokens Lexer.highlight line) before w after) ∧
      ∀ before w after, FirstWord (tokens Lexer.highlight line) before w after →
        highlight line =
            String.ofList (before.flatMap (shown false) ++ (commandColour w).paint w.toList ++
              after.flatMap (shown false)) ∧
          ((before.filterMap bareToken = [] ∧
              c.args = bareText w :: freeWords false (after.filterMap bareToken) ∧
              (commandColour w = .builtin ↔
                (Builtin.ofName? (bareText w)).isSome = true ∧ bareText w = w)) ∨
            ∃ toInput, before.filterMap bareToken = [.operator (.redirection toInput)] ∧
              target? c toInput = some (bareText w) ∧
              c.args = freeWords false (after.filterMap bareToken)) := by
  obtain ⟨ts, hplain, hts, hne, rfl⟩ := Command.ofLine_eq_some_iff.1 h
  have hdelivers := Lexer.delivers_of_stream hplain
  obtain ⟨hbare, hstream⟩ := Lexer.filterMap_bareToken_tokens hplain
  have hends : ∀ t ∈ tokens Lexer.highlight line, t ≠ .endOfLine :=
    fun t ht => (Lexer.delivers_of_mem_tokens ht).1
  constructor
  · obtain ⟨v, rest, hopening⟩ := hts.opening hdelivers hne
    have hword : .word v ∈ ts := by
      rcases hopening with rfl | ⟨toInput, rfl⟩ <;> simp
    rw [← hbare] at hword
    exact exists_firstWord (Lexer.exists_word_of_bare hword)
  · intro before w after hfirst
    have hbareFirst := hfirst.bare
    rw [hbare] at hbareFirst
    constructor
    · rw [highlight, hstream, paintAll_firstWord hends hfirst]
    · rcases hts.around_firstWord hdelivers hbareFirst with hempty | ⟨toInput, hfile⟩
      · refine Or.inl ⟨hempty, ?_, commandColour_eq_builtin_iff⟩
        have hsplit := hbareFirst.split
        rw [hempty] at hsplit
        rw [hsplit]
        rfl
      · refine Or.inr ⟨toInput, hfile, ?_⟩
        have hsplit := hbareFirst.split
        rw [hfile] at hsplit
        rw [hsplit]
        constructor
        · cases toInput <;> rfl
        · exact freeWords_file toInput _ _

/-- A built-in that is known by its name, one that is quoted, and the file of a redirection. -/
theorem highlight_program_redirected :
    highlight " fg %1" = " \x1b[1;33mfg\x1b[0m %1" ∧
      (highlight "\"jobs\" x" = "\x1b[32m\"jobs\"\x1b[0m x" ∧
        (Builtin.ofName? (bareText "\"jobs\"")).isSome = true) ∧
      highlight "> out jobs" = "\x1b[36m>\x1b[0m \x1b[32mout\x1b[0m jobs" := by
  have hnamed : FirstWord (tokens Lexer.highlight " fg %1")
      [.blank " "] "fg" [.blank " ", .word "%1"] := ⟨by cbv, by simp⟩
  have hquoted : FirstWord (tokens Lexer.highlight "\"jobs\" x")
      [] "\"jobs\"" [.blank " ", .word "x"] := ⟨by cbv, by simp⟩
  have hfile : FirstWord (tokens Lexer.highlight "> out jobs")
      [.operator .output, .blank " "] "out" [.blank " ", .word "jobs"] := ⟨by cbv, by simp⟩
  have hnamedLine : Command.ofLine " fg %1" = .ok (some ⟨["fg", "%1"], none, none, false⟩) := by
    cbv
  have hquotedLine : Command.ofLine "\"jobs\" x" = .ok (some ⟨["jobs", "x"], none, none, false⟩) :=
    by cbv
  have hfileLine : Command.ofLine "> out jobs" = .ok (some ⟨["jobs"], none, some "out", false⟩) :=
    by cbv
  refine ⟨?_, ⟨?_, by decide⟩, ?_⟩
  · exact ((highlight_program hnamedLine).2 _ _ _ hnamed).1.trans (by decide)
  · exact ((highlight_program hquotedLine).2 _ _ _ hquoted).1.trans (by decide)
  · exact ((highlight_program hfileLine).2 _ _ _ hfile).1.trans (by decide)

end Highlight

end JobShell
