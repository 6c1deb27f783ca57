import JobShell.Proofs.Command.Grammar

/-!
# Writing commands down and reading them back

A command is written down piece by piece, each with a blank in front but the first; whatever follows
a piece, the piece ends there.

* `Ended rest` says that a word ends where `rest` begins.
* `readWord_quote` reads a quoted text back, whatever its characters are, and `stream_quote` makes a
  word of it.
* `tokens c` are the tokens of a command, and `stream_render` says that the command is written as
  them; `goOn_tokens` reads them back.
* `ofLine_render` is the outcome for commands, and for the lines that are accepted.
-/

namespace JobShell.Command

open Lexer (Item stream plain readWord next)
open Text (isBlank)
open JobShell.Parser

/-! ## 1. Quoted texts -/

/-- Nothing follows, or a blank does. -/
def Ended (rest : List Char) : Prop := rest = [] ∨ ∃ cs, rest = ' ' :: cs

variable {rest : List Char}

theorem readWord_of_ended (h : Ended rest) : readWord plain none rest = some ([], rest) := by
  rcases h with rfl | ⟨cs, rfl⟩
  · rfl
  · rfl

/-- A quoted character is read as itself. -/
theorem readWord_quoteChar (c : Char) (cs : List Char) :
    readWord plain (some '\'') (quoteChar c ++ cs) =
      Lexer.push c (readWord plain (some '\'') cs) := by
  unfold quoteChar
  split
  · rename_i hc
    subst hc
    rfl
  · rename_i hc
    rw [List.singleton_append, readWord, if_neg hc]

/-- **Inside the quotes everything is text**, up to the closing mark. -/
theorem readWord_quoted (cs : List Char) (h : Ended rest) :
    readWord plain (some '\'') (cs.flatMap quoteChar ++ '\'' :: rest) = some (cs, rest) := by
  induction cs with
  | nil =>
    show readWord plain none rest = _
    exact readWord_of_ended h
  | cons c cs ih =>
    rw [List.flatMap_cons, List.append_assoc, readWord_quoteChar, ih]
    rfl

/-- **A quoted text is read as a word**, and the reading goes on behind it. -/
theorem stream_quote (s : String) (h : Ended rest) :
    stream plain (quote s ++ rest) = .ok (.word s) :: stream plain rest := by
  have hquote : quote s ++ rest = '\'' :: (s.toList.flatMap quoteChar ++ '\'' :: rest) := by
    simp [quote]
  rw [hquote]
  have hword : readWord plain none ('\'' :: (s.toList.flatMap quoteChar ++ '\'' :: rest)) =
      some (s.toList, rest) := readWord_quoted s.toList h
  have hnext : next plain ('\'' :: (s.toList.flatMap quoteChar ++ '\'' :: rest)) =
      (.ok (.word s), rest) := by
    rw [Lexer.next_of_not_blank plain (by decide),
      Lexer.readLexeme_word (by decide) (by decide) hword, String.ofList_toList]
  exact Lexer.stream_of_item hnext (by simp)

theorem stream_space (cs : List Char) : stream plain (' ' :: cs) = stream plain cs := by
  rw [← Lexer.stream_plain_dropWhile, ← Lexer.stream_plain_dropWhile cs,
    List.dropWhile_cons_of_pos (by decide)]

/-! ## 2. Commands -/

/-- The tokens of a redirection, if there is one. -/
def fileTokens (toInput : Bool) : Option String → List Token
  | none => []
  | some path => [.operator (.redirection toInput), .word path]

/-- The tokens of a command. -/
def tokens (c : Command) : List Token :=
  c.args.map .word ++ fileTokens true c.infile ++ fileTokens false c.outfile ++
    if c.background then [.operator .background] else []

theorem ended_renderTarget (op : Char) (file : Option String) (h : Ended rest) :
    Ended (renderTarget op file ++ rest) := by
  cases file with
  | none => exact h
  | some path => exact Or.inr ⟨_, rfl⟩

theorem stream_renderWords (ws : List String) (h : Ended rest) :
    stream plain (renderWords ws ++ rest) =
      (ws.map .word).map .ok ++ stream plain rest := by
  fun_induction renderWords ws with
  | case1 => rfl
  | case2 w => exact stream_quote w h
  | case3 w ws hne ih =>
    rw [List.append_assoc, List.cons_append, stream_quote w (Or.inr ⟨_, rfl⟩), stream_space, ih]
    rfl

theorem stream_renderTarget (toInput : Bool) (file : Option String) (h : Ended rest) :
    stream plain (renderTarget (if toInput then '<' else '>') file ++ rest) =
      (fileTokens toInput file).map .ok ++ stream plain rest := by
  cases file with
  | none => rfl
  | some path =>
    have hop : next plain (' ' :: (if toInput then '<' else '>') :: ' ' :: (quote path ++ rest)) =
        (.ok (.operator (.redirection toInput)), ' ' :: (quote path ++ rest)) := by
      cases toInput <;> rfl
    have hblank := stream_space (quote path ++ rest)
    have hstream := Lexer.stream_of_item hop (by simp)
    rw [hblank, stream_quote path h] at hstream
    exact hstream

theorem stream_background :
    stream plain [' ', '&'] = [.ok (.operator .background)] := by
  have hop : next plain [' ', '&'] = (.ok (.operator .background), []) := rfl
  rw [Lexer.stream_of_item hop (by simp), Lexer.stream_nil]

/-- **A command is written as its tokens.** -/
theorem stream_render (c : Command) : stream plain c.render.toList = (tokens c).map .ok := by
  have hback : Ended (if c.background then [' ', '&'] else []) := by
    split
    · exact Or.inr ⟨_, rfl⟩
    · exact Or.inl rfl
  have hout := ended_renderTarget '>' c.outfile hback
  have hin := ended_renderTarget '<' c.infile hout
  calc stream plain c.render.toList
      = stream plain (renderWords c.args ++ (renderTarget '<' c.infile ++
          (renderTarget '>' c.outfile ++ if c.background then [' ', '&'] else []))) := by
        simp only [render, String.toList_ofList, List.append_assoc]
    _ = (c.args.map .word).map .ok ++ ((fileTokens true c.infile).map .ok ++
          ((fileTokens false c.outfile).map .ok ++
            stream plain (if c.background then [' ', '&'] else []))) := by
        rw [stream_renderWords c.args hin]
        congr 1
        rw [show '<' = (if true then '<' else '>') from rfl, stream_renderTarget true c.infile hout]
        congr 1
        exact stream_renderTarget false c.outfile hback
    _ = (tokens c).map .ok := by
        cases hb : c.background with
        | false => simp [tokens, hb]
        | true => simp [tokens, hb, stream_background]

/-! ## 3. Reading back -/

/-- The words of a command become its arguments. -/
theorem goOn_words {c : Command} (hback : c.background = false) (ws : List String)
    (items : List Item) :
    goOn c ((ws.map .word).map .ok ++ items) = goOn { c with args := c.args ++ ws } items := by
  induction ws generalizing c with
  | nil => simp
  | cons w ws ih =>
    have hdemand : demand c (.word w) = .advance { c with args := c.args ++ [w] } := by
      simp [demand, hback]
    have hrest : goOn { c with args := c.args ++ [w] } ((ws.map .word).map .ok ++ items) =
        goOn { c with args := (c.args ++ [w]) ++ ws } items :=
      @ih { c with args := c.args ++ [w] } hback
    calc goOn c (((w :: ws).map .word).map .ok ++ items)
        = goOn { c with args := c.args ++ [w] } ((ws.map .word).map .ok ++ items) :=
          goOn_of_advance hdemand _
      _ = goOn { c with args := c.args ++ (w :: ws) } items := by
          rw [hrest, List.append_assoc, List.singleton_append]

/-- The tokens of a redirection become its file. -/
theorem goOn_fileTokens {c : Command} {toInput : Bool} (hfree : target? c toInput = none)
    (file : Option String) (items : List Item) :
    goOn c ((fileTokens toInput file).map .ok ++ items) =
      goOn (if toInput then { c with infile := file } else { c with outfile := file }) items := by
  cases file with
  | none =>
    have hsame :
        (if toInput then { c with infile := none } else { c with outfile := none }) = c := by
      cases c
      cases toInput <;> simp_all [target?]
    rw [hsame]
    rfl
  | some path => exact goOn_file hfree path items

/-- The token of a command in the background makes it one. -/
theorem goOn_background {c : Command} (hback : c.background = false) (background : Bool) :
    goOn c (if background then [.ok (.operator .background)] else []) =
      finish { c with background } := by
  cases background with
  | false =>
    show finish c = finish { c with background := false }
    rw [← hback]
  | true =>
    have hdemand : demand c (.operator .background) = .advance { c with background := true } := by
      simp [demand, hback]
    exact goOn_of_advance hdemand []

/-- **The tokens of a command are read as the command**, if it has a program. -/
theorem goOn_tokens {c : Command} (hargs : c.args ≠ []) :
    goOn {} ((tokens c).map .ok) = .ok (some c) := by
  have hmap : (if c.background then [.operator .background] else [] : List Token).map .ok =
      (if c.background then [.ok (.operator .background)] else [] : List Item) := by
    split <;> rfl
  calc goOn {} ((tokens c).map .ok)
      = goOn {} ((c.args.map .word).map .ok ++ ((fileTokens true c.infile).map .ok ++
          ((fileTokens false c.outfile).map .ok ++
            if c.background then [.ok (.operator .background)] else []))) := by
        simp only [tokens, List.map_append, List.append_assoc, hmap]
    _ = goOn { c with background := false }
          (if c.background then [.ok (.operator .background)] else []) := by
        rw [goOn_words rfl, goOn_fileTokens rfl, goOn_fileTokens rfl]
        rfl
    _ = finish c := goOn_background rfl c.background
    _ = .ok (some c) := by
        rw [finish, List.isEmpty_eq_false_iff.2 hargs]
        rfl

theorem args_ne_nil_of_finish {c c' : Command} (h : finish c = .ok (some c')) : c'.args ≠ [] := by
  unfold finish at h
  split at h
  · split at h
    · cases h
    · cases h
  · rename_i hargs
    cases h
    exact fun he => hargs (List.isEmpty_iff.2 he)

/-- A command that a line asks for has a program. -/
theorem args_ne_nil_of_ofLine {line : String} {c : Command} (h : ofLine line = .ok (some c)) :
    c.args ≠ [] := by
  rw [Grammar.ofLine_eq_goOn] at h
  obtain ⟨ts, hts, hstream | hstream⟩ := Lexer.stream_shape plain line.toList
  · rw [hstream] at h
    rcases goOn_outcome {} ts hts [] (by simp) with ⟨-, hgo⟩ | ⟨-, e, hgo⟩
    · rw [List.append_nil, h] at hgo
      exact args_ne_nil_of_finish hgo.symm
    · rw [List.append_nil, h] at hgo
      cases hgo
  · obtain ⟨e, he⟩ := Grammar.goOn_open_quote hts .unclosedQuote
    rw [hstream, he] at h
    cases h

/-- **Every command can be written down**: what it is written as is read as the command, if it has a
program. So is every command that was read from some line. -/
theorem ofLine_render :
    (∀ c : Command, c.args ≠ [] → ofLine c.render = .ok (some c)) ∧
      ∀ line c, ofLine line = .ok (some c) → ofLine c.render = .ok (some c) := by
  have written : ∀ c : Command, c.args ≠ [] → ofLine c.render = .ok (some c) := by
    intro c hargs
    rw [Grammar.ofLine_eq_goOn, stream_render]
    exact goOn_tokens hargs
  exact ⟨written, fun _ c h => written c (args_ne_nil_of_ofLine h)⟩

/-- Quotes, an empty word, white space, operators and control characters are written down, and a
line is written anew. -/
theorem ofLine_render_quotes :
    ofLine (render ⟨["it's", "", "a\n #&>\"b"], some "<", some "\x00'", true⟩) =
        .ok (some ⟨["it's", "", "a\n #&>\"b"], some "<", some "\x00'", true⟩) ∧
      ofLine (render ⟨["sort", "-r"], some "i j", none, true⟩) =
        .ok (some ⟨["sort", "-r"], some "i j", none, true⟩) :=
  ⟨ofLine_render.1 _ (by decide), ofLine_render.2 "<'i j' sort -r&" _ (by cbv)⟩

end JobShell.Command
