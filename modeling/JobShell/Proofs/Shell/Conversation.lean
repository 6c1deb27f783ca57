import JobShell.Proofs.Shell.Reading
import JobShell.Proofs.Shell.Refusal
import JobShell.Proofs.Shell.Rest
import JobShell.Proofs.Shell.Talk

/-!
# Conversations

What a shell that is not at a terminal does with its input, line by line up to `quit` or to the end,
with whatever line editor.

* `linesOf clean text` are the lines of a text as they are evaluated, and `saysQuit` says that one is
  a command to quit. `heed` is what is done about a line; `on_takeLine_of_ok` and its neighbours say
  what the shell makes of that.
* `Conversation ed o s texts s'` says which lines are evaluated, one after the other, and what comes
  of it.
* `ComesTo` is what the shell comes to from where it is; `comesTo_of_heed`, `comesTo_of_quit`,
  `comesTo_of_failed` and `comesTo_nil` are its ways to go on, `Conversation.comesTo` follows a
  conversation through them.
* `runs_up_to_quit` puts this together for a whole call.

How far processes go on while the shell waits for a line is up to the editor.
-/

namespace JobShell

open Act

namespace Shell

variable {ρ : Type} {ed : Editor Kernel ρ} {held : ρ → List UInt8} {clean : List Char → String}
  {o : Options} {s s' s₀ s₁ : Session} {r : ρ} {text : String} {cs : List Char}
  {bs rest : List UInt8}

/-! ## 1. What is said -/

/-- The lines of a text as they are evaluated. -/
def linesOf (clean : List Char → String) (text : String) : List String :=
  (Text.lines text.toList).map clean

/-- The line is a command to quit. -/
def saysQuit (text : String) : Bool :=
  match Command.ofLine text with
  | .ok (some c) => c.program? = some "quit"
  | _ => false

/-- What is done about a line: it is evaluated, unless it is empty. -/
def heed {σ : Type} [Host σ] (text : String) : Act σ Unit :=
  if text.isEmpty then pure () else evaluate text

theorem heed_of_ne_none {σ : Type} [Host σ] (h : Command.ofLine text ≠ .ok none) :
    heed text = (evaluate text : Act σ Unit) := by
  refine if_neg fun hempty => h ?_
  rw [String.isEmpty_iff.1 hempty]
  exact (Command.ofLine_eq_none_iff "").2 (Or.inl rfl)

theorem mirrors_heed (text : String) : Mirrors (heed text) (heed text) :=
  (mirrors_pure ()).ite (mirrors_evaluate text)

/-- A command to quit ends the shell, whatever else there is on its line. -/
theorem on_heed_of_quit (h : saysQuit text = true) (s : Session) :
    (heed text).on s = (.error (.exited 0), s) := by
  unfold saysQuit at h
  split at h
  · rename_i c hline
    have hname : c.program? = some Builtin.quit.name := of_decide_eq_true h
    rw [heed_of_ne_none (by rw [hline]; simp), evaluate_of_command hline, execute_of_builtin hname]
    rfl
  · cases h

/-! ## 2. What the shell makes of a line -/

/-- What the editor keeps once a line was entered: at a terminal the line is remembered, unless it
is empty. -/
def entered (ed : Editor Kernel ρ) (interactive : Bool) (text : String) (r : ρ) : ρ :=
  if text.isEmpty then r else if interactive then ed.remember text r else r

variable {interactive : Bool}

/-- A line that was evaluated is done with. -/
theorem on_takeLine_of_ok (h : (heed (Text.trim text)).on s = (.ok (), s')) :
    (takeLine ed interactive r text).on s =
      (.ok (entered ed interactive (Text.trim text) r), s') := by
  rw [heed] at h
  rw [takeLine, entered]
  split
  · rename_i hempty
    rw [if_pos hempty] at h
    cases h
    rfl
  · rename_i hempty
    rw [if_neg hempty] at h
    rw [obey, on_bind, on_bind, attempt_on_of_ok h]
    rfl

/-- A line that ends the shell ends it. -/
theorem on_takeLine_of_final {e : Ending} (h : (heed (Text.trim text)).on s = (.error e, s'))
    (hfinal : e.isFinal = true) : (takeLine ed interactive r text).on s = (.error e, s') := by
  rw [heed] at h
  rw [takeLine]
  split
  · rename_i hempty
    rw [if_pos hempty] at h
    cases h
  · rename_i hempty
    rw [if_neg hempty] at h
    rw [obey, on_bind, on_bind, attempt_on_of_final h hfinal]

/-- What the shell says when the evaluation of a line has failed. -/
def lament (reason : Reason) : Act Kernel Unit :=
  fail controlFault ["Nix error: " ++ reason.coded, reason.coded]

/-- A line whose evaluation fails ends the shell, too, and that is said. -/
theorem on_takeLine_of_failed {reason : Reason}
    (h : (heed (Text.trim text)).on s = (.error (.failed reason), s')) {e : Ending}
    (hlament : (lament reason).on s' = (.error e, s₁)) :
    (takeLine ed interactive r text).on s = (.error e, s₁) := by
  rw [heed] at h
  rw [takeLine]
  split
  · rename_i hempty
    rw [if_pos hempty] at h
    cases h
  · rename_i hempty
    rw [if_neg hempty] at h
    rw [lament] at hlament
    rw [obey, on_bind, on_bind, attempt_on_of_failed h]
    simp only [hlament]

theorem unread_lament (reason : Reason) (s : Session) : UnreadAt (lament reason) s :=
  (unread_note _ _ _ _ s).bind fun _ s' => (unread_writeOrFail _ s').bind fun _ _ _ => rfl

/-! ## 3. Conversations -/

/-- A prompt is shown, and the input is left as it is meanwhile. -/
structure Prompts (ed : Editor Kernel ρ) (o : Options) (s s' : Session) : Prop where
  on : (ed.prompt o.prompt).on s = (.ok (.ok ()), s')
  unread : UnreadAt (ed.prompt o.prompt) s

/-- **A conversation.** For each of the lines the shell shows a prompt and evaluates the line. That
comes to an end, and no process reads the input of the shell meanwhile. At last the shell shows a
prompt for a line that is still to come. -/
inductive Conversation (ed : Editor Kernel ρ) (o : Options) :
    Session → List String → Session → Prop
  | waits {s s' : Session} (hprompt : Prompts ed o s s') : Conversation ed o s [] s'
  | hears {s s₀ s₁ s' : Session} {text : String} {texts : List String}
      (hprompt : Prompts ed o s s₀) (hheed : (heed text).on s₀ = (.ok (), s₁))
      (hnone : NoneReads (heed text) s₀) (hrest : Conversation ed o s₁ texts s') :
      Conversation ed o s (text :: texts) s'

/-- **No line of a conversation is a command to quit.** -/
theorem Conversation.not_saysQuit {texts : List String} (h : Conversation ed o s texts s') :
    ∀ text ∈ texts, saysQuit text = false := by
  induction h with
  | waits => exact fun _ hmem => (List.not_mem_nil hmem).elim
  | hears hprompt hheed hnone hrest ih =>
    intro text hmem
    rcases List.mem_cons.1 hmem with rfl | hmem
    · rw [← Bool.not_eq_true]
      intro hquit
      rw [on_heed_of_quit hquit] at hheed
      cases hheed
    · exact ih text hmem

/-! ## 4. The loop -/

/-- Wherever in the input the shell is, it comes to this outcome if these bytes are left: some in
the hands of the editor, the others still to be read. -/
def ComesTo (ed : Editor Kernel ρ) (held : ρ → List UInt8) (o : Options) (s : Session)
    (bs : List UInt8) (x : Except Ending Unit) (s' : Session) : Prop :=
  ∀ ⦃n : Nat⦄ ⦃r : ρ⦄ ⦃input : List UInt8⦄, held r ++ input = bs → bs.length ≤ n →
    ∃ input', (interact ed false o (n + 1) r).on (s.hearing input) = (x, s'.hearing input')

/-- **One turn of the loop**: a prompt, and the line at the beginning of what is left. -/
theorem on_interact_of_begins (hread : ed.ReadsLines held clean) (hprompt : Prompts ed o s s₀)
    (hline : Begins cs bs rest) {n : Nat} {input : List UInt8} (hbs : held r ++ input = bs) :
    ∃ text r' input', held r' ++ input' = rest ∧ Text.trim text = clean cs ∧
      (interact ed false o (n + 1) r).on (s.hearing input) =
        (takeLine ed false r' text >>= fun r => interact ed false o n r).on
          (s₀.hearing input') := by
  rw [← hbs] at hline
  obtain ⟨text, r', input', hleft, htext, hnext⟩ := hread.line (s := s₀) hline
  refine ⟨text, r', input', hleft, htext, ?_⟩
  have hloop : interact ed false o (n + 1) r =
      (readLoop ed false o (n + 1) r >>= fun _ => pure () : Act Kernel Unit) := rfl
  rw [hloop, readLoop, bind_assoc, on_bind, hprompt.unread.of_on hprompt.on]
  dsimp only
  rw [bind_assoc, on_bind, hnext]
  dsimp only
  rw [bind_assoc]
  rfl

/-- A line that was evaluated makes room for the next one. -/
theorem comesTo_of_heed (hread : ed.ReadsLines held clean) (hprompt : Prompts ed o s s₀)
    (hline : Begins cs bs rest) (hheed : (heed (clean cs)).on s₀ = (.ok (), s₁))
    (hnone : NoneReads (heed (clean cs)) s₀) {x : Except Ending Unit}
    (hrest : ComesTo ed held o s₁ rest x s') : ComesTo ed held o s bs x s' := by
  intro n r input hbs hbound
  have hlt : rest.length < bs.length := hline.length_lt
  obtain ⟨text, r', input', hleft, htext, hon⟩ := on_interact_of_begins hread hprompt hline hbs
  have hunread := ((mirrors_heed (clean cs)).unread hnone).of_on hheed input'
  rw [← htext] at hunread
  rw [hon, on_bind, on_takeLine_of_ok hunread]
  obtain ⟨m, rfl⟩ : ∃ m, n = m + 1 := ⟨n - 1, by omega⟩
  have hsame : entered ed false (Text.trim text) r' = r' := by
    rw [entered]
    split
    · rfl
    · rfl
  dsimp only
  rw [hsame]
  exact hrest hleft (by omega)

/-- A line that ends the shell is the last one. -/
theorem comesTo_of_takeLine (hread : ed.ReadsLines held clean) (hprompt : Prompts ed o s s₀)
    (hline : Begins cs bs rest) {e : Ending}
    (htake : ∀ ⦃r : ρ⦄ ⦃text : String⦄ (input : List UInt8), Text.trim text = clean cs →
      (takeLine ed false r text).on (s₀.hearing input) = (.error e, s'.hearing input)) :
    ComesTo ed held o s bs (.error e) s' := by
  intro n r input hbs hbound
  obtain ⟨text, r', input', -, htext, hon⟩ := on_interact_of_begins hread hprompt hline hbs
  refine ⟨input', ?_⟩
  rw [hon, on_bind, htake input' htext]

/-- The line that says quit is the last one. -/
theorem comesTo_of_quit (hread : ed.ReadsLines held clean) (hprompt : Prompts ed o s s₀)
    (hline : Begins cs bs rest) (hquit : saysQuit (clean cs) = true) :
    ComesTo ed held o s bs (.error (.exited 0)) s₀ :=
  comesTo_of_takeLine hread hprompt hline fun _ _ input htext =>
    on_takeLine_of_final (by rw [htext]; exact on_heed_of_quit hquit (s₀.hearing input)) rfl

/-- So is a line whose evaluation fails. -/
theorem comesTo_of_failed (hread : ed.ReadsLines held clean) (hprompt : Prompts ed o s s₀)
    (hline : Begins cs bs rest) {reason : Reason}
    (hheed : (heed (clean cs)).on s₀ = (.error (.failed reason), s₁))
    (hnone : NoneReads (heed (clean cs)) s₀) {e : Ending}
    (hlament : (lament reason).on s₁ = (.error e, s')) : ComesTo ed held o s bs (.error e) s' :=
  comesTo_of_takeLine hread hprompt hline fun _ _ input htext =>
    on_takeLine_of_failed
      (by rw [htext]; exact ((mirrors_heed (clean cs)).unread hnone).of_on hheed input)
      ((unread_lament reason s₁).of_on hlament input)

/-- At the end of the input a newline is written. -/
theorem comesTo_nil (hread : ed.ReadsLines held clean) (hprompt : Prompts ed o s s₀)
    (htakes : s₀.host.around.outputFails = false) :
    ComesTo ed held o s [] (.ok ()) (s₀.uttered "\n") := by
  intro n r input hbs _
  obtain ⟨r', input', hnext⟩ := hread.ended (s := s₀) hbs
  refine ⟨input', ?_⟩
  have hloop : interact ed false o (n + 1) r =
      (readLoop ed false o (n + 1) r >>= fun _ => pure () : Act Kernel Unit) := rfl
  have hlast := (unread_writeOrFail "\n" s₀).of_on (on_writeOrFail_of_takes htakes "\n") input'
  rw [hloop, readLoop, bind_assoc, on_bind, hprompt.unread.of_on hprompt.on]
  dsimp only
  rw [bind_assoc, on_bind, hnext]
  dsimp only
  rw [bind_assoc, on_bind, hlast]
  rfl

/-! ## 5. Conversations and texts -/

/-- More can follow a text whose last line is complete. -/
def Precedes (cs : List Char) (rest : List UInt8) : Prop :=
  rest = [] ∨ cs = [] ∨ cs.getLast? = some '\n'

theorem Precedes.of_append {line cs' : List Char} (h : Precedes (line ++ '\n' :: cs') rest) :
    Precedes cs' rest := by
  rcases h with h | h | hlast
  · exact Or.inl h
  · exact (List.append_ne_nil_of_right_ne_nil line (List.cons_ne_nil _ _) h).elim
  · by_cases hne : cs' = []
    · exact Or.inr (Or.inl hne)
    · rw [List.getLast?_append_of_ne_nil _ (List.cons_ne_nil _ _),
        List.getLast?_cons_of_ne_nil hne] at hlast
      exact Or.inr (Or.inr hlast)

/-- Nothing can follow a line without a newline. -/
theorem Precedes.eq_nil (h : Precedes cs rest) (hline : '\n' ∉ cs) (hne : cs ≠ []) : rest = [] := by
  rcases h with h | h | hlast
  · exact h
  · exact (hne h).elim
  · exact (hline (List.mem_of_getLast? hlast)).elim

/-- **A text begins with the first of its lines.** -/
theorem exists_begins {texts : List String} (hlines : (Text.lines cs).map clean = text :: texts)
    (hrest : Precedes cs rest) :
    ∃ line cs', clean line = text ∧ (Text.lines cs').map clean = texts ∧
      Precedes cs' rest ∧ Begins line (Text.encode cs ++ rest) (Text.encode cs' ++ rest) := by
  have hne : cs ≠ [] := by
    rintro rfl
    cases hlines
  obtain ⟨line, hline, ⟨cs', rfl⟩ | ⟨rfl, -⟩⟩ := Text.exists_line hne
  · rw [Text.lines_cons hline, List.map_cons, List.cons.injEq] at hlines
    refine ⟨line, cs', hlines.1, hlines.2, hrest.of_append, ?_⟩
    rw [Text.encode_append, Text.encode_cons, List.append_assoc]
    exact .ended hline _
  · obtain rfl : rest = [] := hrest.eq_nil hline hne
    rw [Text.lines_last hline hne, List.map_singleton, List.cons.injEq] at hlines
    refine ⟨cs, [], hlines.1, hlines.2, Or.inl rfl, ?_⟩
    rw [List.append_nil]
    exact .last hline hne

/-- **A conversation over the first lines of a text is gone through**, and what comes then is what
the shell comes to. -/
theorem Conversation.comesTo (hread : ed.ReadsLines held clean) {before after : List String}
    (h : Conversation ed o s before s') (hlines : (Text.lines cs).map clean = before ++ after)
    (hrest : Precedes cs rest) {x : Except Ending Unit} {s'' : Session}
    (hlast : ∀ ⦃s₀ : Session⦄ ⦃cs' : List Char⦄, Prompts ed o s₀ s' →
      (Text.lines cs').map clean = after → Precedes cs' rest →
      ComesTo ed held o s₀ (Text.encode cs' ++ rest) x s'') :
    ComesTo ed held o s (Text.encode cs ++ rest) x s'' := by
  induction h generalizing cs with
  | waits hprompt => exact hlast hprompt hlines hrest
  | hears hprompt hheed hnone _ ih =>
    obtain ⟨line, cs', rfl, hlines', hrest', hbegins⟩ := exists_begins hlines hrest
    exact comesTo_of_heed hread hprompt hbegins hheed hnone (ih hlines' hrest' hlast)

/-! ## 6. Lines that start nothing -/

/-- A line that is no command is answered with a message, and nothing else happens. -/
theorem heed_of_error {e : SyntaxError} (hline : Command.ofLine text = .error e) (s : Session) :
    (heed text).on s = (say e.message : Act Kernel Unit).on s ∧ NoneReads (heed text) s := by
  have hne : Command.ofLine text ≠ .ok none := by
    rw [hline]
    simp
  have heval (σ : Type) [Host σ] : heed text = (say e.message : Act σ Unit) := by
    rw [heed_of_ne_none hne, evaluate, hline]
  constructor
  · rw [heval]
  · constructor
    rw [heval]
    trivial

/-- No prompt is shown away from a terminal, and nothing is said about it. -/
theorem prompts_plain_of_quiet {t : Terminal} {clusters : Clustering} (hkind : t.isPlain = false)
    (ht : t.interactive = false) (hfilter : s.filter.allows lineTarget .debug = false)
    (hrest : s.host.Resting) : Prompts (Editor.plain t clusters) o s s := by
  refine ⟨?_, unread_prompt_plain t clusters _ (noneReads_settle_of_resting hrest)⟩
  show (settle >>= fun _ => showPrompt t o.prompt : Act Kernel _).on s = _
  rw [on_bind, on_settle_of_resting hrest]
  dsimp only
  rw [showPrompt, if_neg (by rw [hkind]; decide), if_neg (by rw [ht]; decide), note, on_bind,
    on_bind, on_get]
  simp only [hfilter]
  rfl

end Shell

/-! ## 7. Calls -/

namespace Invocation

open Shell

/-- The call with other input. -/
def hearing (i : Invocation) (bs : List UInt8) : Invocation :=
  { i with around := { i.around with input := bs } }

variable {ρ : Type} {ed : Editor Kernel ρ} {held : ρ → List UInt8} {clean : List Char → String}
  {i : Invocation} {o : Options} {bs : List UInt8} {r₀ : ρ} {s' : Session}

/-- A call comes to what its loop comes to. -/
theorem runWith_of_comesTo (hargs : Options.ofArgs i.home i.args = .ok o) (hhelp : o.help = false)
    (ht : i.terminal.interactive = false) (hr₀ : held r₀ = []) {x : Except Ending Unit}
    (h : ComesTo ed held o (i.session o) bs x s') :
    (i.hearing bs).runWith ed r₀ =
      { output := s'.host.around.output, files := s'.host.around.files, ending := endingOf x } := by
  have hbs : held r₀ ++ bs = bs := by rw [hr₀, List.nil_append]
  obtain ⟨input', hon⟩ := h hbs (Nat.le_refl bs.length)
  have hrun : (i.hearing bs).runWith ed r₀ = (i.hearing bs).converse o ed r₀ := by
    rw [runWith, show Options.ofArgs (i.hearing bs).home (i.hearing bs).args = .ok o from hargs]
    exact if_neg (by rw [hhelp]; decide)
  have hconverse : (i.hearing bs).converse o ed r₀ =
      let a : Act Kernel Unit := interact ed i.terminal.interactive o (bs.length + 1) r₀
      let outcome := a.on ((i.session o).hearing bs)
      { output := outcome.2.host.around.output, files := outcome.2.host.around.files
        ending := endingOf outcome.1 } := rfl
  rw [hrun, hconverse, ht]
  simp only [hon]
  rfl

/-- **The lines up to quit are evaluated, and no further ones.** This is what a call comes to that
is not at a terminal, with any editor that reads lines and holds nothing at first.

* Where no line says quit, all lines are evaluated in their order, a newline is written, and the
  shell exits with the code 0.
* Where a conversation leads up to a line that says quit, the call leaves behind what was done in
  it, and the shell exits with the code 0. Nothing that follows makes a difference, be it text or
  not.
* Where it leads up to a line whose evaluation fails, the shell says so and exits with the code 1,
  whatever follows.
* A line without backspaces is evaluated as it stands, but for blanks at its ends. -/
theorem runs_up_to_quit (i : Invocation) (hread : ed.ReadsLines held clean) (hr₀ : held r₀ = [])
    {o : Options} (text : String) (hargs : Options.ofArgs i.home i.args = .ok o)
    (hhelp : o.help = false) (ht : i.terminal.interactive = false) :
    (∀ s', Conversation ed o (i.session o) (linesOf clean text) s' →
      s'.host.around.outputFails = false →
      (∀ line ∈ linesOf clean text, saysQuit line = false) ∧
        (i.hearing (Text.bytes text)).runWith ed r₀ =
          { output := s'.host.around.output ++ [newline]
            files := s'.host.around.files
            ending := .exited 0 }) ∧
    (∀ before line after s', linesOf clean text = before ++ line :: after →
      Conversation ed o (i.session o) before s' → saysQuit line = true →
      (∀ line' ∈ before, saysQuit line' = false) ∧
        ∀ rest, (rest = [] ∨ text.toList.getLast? = some '\n') →
          (i.hearing (Text.bytes text ++ rest)).runWith ed r₀ =
            { output := s'.host.around.output
              files := s'.host.around.files
              ending := .exited 0 }) ∧
    (∀ before line after s' s'' reason, linesOf clean text = before ++ line :: after →
      Conversation ed o (i.session o) before s' → NoneReads (heed line) s' →
      (heed line).on s' = (.error (.failed reason), s'') →
      s''.host.around.outputFails = false →
      ∀ rest, (rest = [] ∨ text.toList.getLast? = some '\n') →
        ((i.hearing (Text.bytes text ++ rest)).runWith ed r₀).ending = .exited 1) ∧
    (∀ (n : Nat) cs, (Text.lines text.toList)[n]? = some cs → '\x08' ∉ cs →
      (linesOf clean text)[n]? = some (Text.trim (String.ofList cs))) := by
  refine ⟨fun s' h htakes => ⟨h.not_saysQuit, ?_⟩,
    fun before line after s' hlines h hquit => ⟨h.not_saysQuit, fun rest hrest => ?_⟩,
    fun before line after s' s'' reason hlines h hnone hfailed htakes rest hrest => ?_,
    fun n cs hcs hplain => ?_⟩
  · have hcomes : ComesTo ed held o (i.session o) (Text.encode text.toList ++ []) (.ok ())
        (s'.uttered "\n") := by
      refine h.comesTo hread (List.append_nil _).symm (.inl rfl) fun s₀ cs' hprompt hnil _ => ?_
      obtain rfl : cs' = [] := Text.lines_eq_nil_iff.1 (List.map_eq_nil_iff.1 hnil)
      exact comesTo_nil hread hprompt htakes
    rw [List.append_nil] at hcomes
    exact runWith_of_comesTo hargs hhelp ht hr₀ hcomes
  · have hcomes : ComesTo ed held o (i.session o) (Text.encode text.toList ++ rest)
        (.error (.exited 0)) s' := by
      refine h.comesTo hread hlines (hrest.imp_right Or.inr) fun s₀ cs' hprompt hafter hrest' => ?_
      obtain ⟨cs, _, rfl, -, -, hbegins⟩ := exists_begins hafter hrest'
      exact comesTo_of_quit hread hprompt hbegins hquit
    exact runWith_of_comesTo hargs hhelp ht hr₀ hcomes
  · obtain ⟨s₁, hlament⟩ : ∃ s₁, (lament reason).on s'' = (.error (.exited 1), s₁) :=
      on_fail htakes _ _
    have hcomes : ComesTo ed held o (i.session o) (Text.encode text.toList ++ rest)
        (.error (.exited 1)) s₁ := by
      refine h.comesTo hread hlines (hrest.imp_right Or.inr) fun s₀ cs' hprompt hafter hrest' => ?_
      obtain ⟨cs, _, rfl, -, -, hbegins⟩ := exists_begins hafter hrest'
      exact comesTo_of_failed hread hprompt hbegins hfailed hnone hlament
    exact congrArg Report.ending (runWith_of_comesTo hargs hhelp ht hr₀ hcomes)
  · rw [linesOf, List.getElem?_map, hcs]
    exact congrArg some (hread.plain hplain)

/-- A call without anything around it. -/
def silent : Invocation := { around := { files := .empty } }

/-- A line that is no command, and an empty line. -/
def refused : String := "fg | cat\n\n"

/-- The same before a command to quit that is quoted, redirected and in the background. -/
def quitting : String := refused ++ " 'qu'it > x &\n"

/-- Without a command to quit the shell parts with a newline; what follows one need not even be a
text. -/
theorem runs_up_to_quit_quoted :
    (silent.hearing (Text.bytes refused)).run =
        { output := Text.bytes "Syntax error: Unsupported operator '|'\n\n"
          files := .empty
          ending := .exited 0 } ∧
      (silent.hearing (Text.bytes quitting ++ [106, 111, 98, 115, 10, 255])).run =
        { output := Text.bytes "Syntax error: Unsupported operator '|'\n"
          files := .empty
          ending := .exited 0 } := by
  let s := silent.session {}
  let s' := ((say (SyntaxError.unsupported .pipe).message : Act Kernel Unit).on s).2
  have hread := readsLines_plain {} Clustering.cuts_single
  have hempty : Reader.buffer {} = [] := rfl
  have herror : Command.ofLine "fg | cat" = .error (.unsupported .pipe) := by decide +kernel
  have hfilter : s.filter.allows lineTarget .debug = false := by decide +kernel
  have hprompt : Prompts (.plain {} .single) {} s s :=
    prompts_plain_of_quiet rfl rfl hfilter (Kernel.resting_of_none rfl rfl)
  have hprompt' : Prompts (.plain {} .single) {} s' s' :=
    prompts_plain_of_quiet rfl rfl hfilter (Kernel.resting_of_none rfl rfl)
  obtain ⟨hheed, hnone⟩ := heed_of_error herror s
  have hheard : Conversation (.plain {} .single) {} s ["fg | cat", ""] s' :=
    .hears hprompt hheed hnone (.hears hprompt' (on_pure () s') ⟨trivial⟩ (.waits hprompt'))
  have houtput : s'.host.around.output = Text.bytes "Syntax error: Unsupported operator '|'\n" := by
    decide +kernel
  constructor
  · have hlines : linesOf (readable .single) refused = ["fg | cat", ""] := by decide +kernel
    obtain ⟨hall, -⟩ := runs_up_to_quit silent hread hempty refused (o := {}) rfl rfl rfl
    obtain ⟨-, hrun⟩ := hall s' (hlines ▸ hheard) rfl
    refine hrun.trans ?_
    rw [houtput]
    rfl
  · have hlines : linesOf (readable .single) quitting = ["fg | cat", ""] ++ ["'qu'it > x &"] := by
      decide +kernel
    have hquit : saysQuit "'qu'it > x &" = true := by decide +kernel
    have hlast : quitting.toList.getLast? = some '\n' := by decide +kernel
    obtain ⟨-, hsome, -⟩ := runs_up_to_quit silent hread hempty quitting (o := {}) rfl rfl rfl
    obtain ⟨-, hrun⟩ := hsome _ _ _ _ hlines hheard hquit
    refine (hrun [106, 111, 98, 115, 10, 255] (Or.inr hlast)).trans ?_
    rw [houtput]
    rfl

/-- A call that can write nothing. -/
def speechless : Invocation := { around := { files := .empty, outputFails := true } }

/-- A call that can start no process. -/
def childless : Invocation := { around := { files := .empty, processLimit := some 0 } }

/-- Three things that a call may come upon: a backspace, which can make a command to quit of a line
that is none, so that the next line is not evaluated and no newline is written; an output that takes
nothing, so that the shell cannot even part; and a system that refuses to start a process, which
ends the shell at the line that asks for one. -/
theorem backspace_says_quit :
    (∀ cs ∈ Text.lines "quix\x08t\nbg\n".toList,
        saysQuit (Text.trim (String.ofList cs)) = false) ∧
      (silent.hearing (Text.bytes "quix\x08t\nbg\n")).run.output = [] ∧
      (speechless.hearing []).run.ending = .exited 101 ∧
      (childless.hearing (Text.bytes "nosuch\nbg\n")).run.ending = .exited 1 := by
  decide +kernel

end Invocation

end JobShell
