import JobShell.Proofs.Files
import JobShell.Proofs.History
import JobShell.Proofs.Process.Input
import JobShell.Proofs.Shell.Conversation
import JobShell.Proofs.Shell.Enduring

/-!
# Sessions that are remembered

What a shell at a terminal leaves in its history file, whatever is entered and whatever that does.

* `readsOn_of_on_heed` says that no line gives back input. So the bound of the loop is never met:
  each turn takes at least one byte (`left_lt_of_enters`).
* `saved` is what saving a history does to files, and `content_saved` how it is found there.
* `Editor.Stores ed history held` says that an editor remembers lines as a history does, and saves
  it; the plain editor does (`stores_plain`).
* `Enters` is a line that is entered at the next prompt, `EndsInput` the end of the input there.
  `Dialogue ed o s r texts s' r'` says which lines are entered and evaluated, one after the other;
  `Dialogue.interact` follows the shell through them.
* `Remembers` is what the end of the input leaves; `history_saved_unless_quit` puts this together
  for a whole call.
-/

namespace JobShell

open Act

namespace Shell

variable {s s' s₁ : Session} {α : Type}

/-! ## 1. Input that is left -/

/-- What is left of the input is an end of what was left. -/
def ReadsOn (s s' : Session) : Prop := s.host.ReadsOn s'.host

theorem endures_readsOn (s₀ : Session) (m : Mask) : Endures m (ReadsOn s₀) where
  write {s bs} h := h.trans (s.host.around.readsOn_write .shared bs)
  withFiles h := h
  fork {s l} h := h.trans (Kernel.readsOn_of_around_eq (s.host.around_fork l))
  send {s pid n} h := h.trans (Kernel.readsOn_of_around_eq (s.host.around_post pid n))
  sendGroup {s pid n} h := h.trans (Kernel.readsOn_of_around_eq (s.host.around_postGroup pid n))
  collect {s} h := h.trans (Kernel.readsOn_of_around_eq s.host.around_collect)
  take h := h
  sleep {s m'} h := h.trans (s.host.readsOn_sleep m')
  pass {s m'} h := h.trans (s.host.readsOn_settle m')
  mask h := h
  table h := h
  record _ h := h

/-- **No line gives back input**, whatever it says. -/
theorem readsOn_of_on_heed {text : String} (hon : (heed text).on s = (.ok (), s')) :
    ReadsOn s s' := by
  have hs : At (ReadsOn s) s.mask s := ⟨.refl s.host, rfl⟩
  unfold heed at hon
  split at hon
  · cases hon
    exact hs.1
  · exact (((endures_readsOn s s.mask).evaluate text).of_ok hs (attempt_on_of_ok hon)).1

/-- Nor does a shell that waits. -/
theorem readsOn_of_on_settle (hon : (settle : Act Kernel Unit).on s = (.ok (), s')) :
    ReadsOn s s' := by
  have hs : At (ReadsOn s) s.mask s := ⟨.refl s.host, rfl⟩
  exact ((endures_readsOn s s.mask).settle.of_ok hs hon).1

theorem Talks.readsOn (h : Talks s s') : ReadsOn s s' := by
  show s'.host.around.input <:+ s.host.around.input
  exact h.input ▸ List.suffix_rfl

/-- The bytes that are left: some in the hands of the editor, the others still to be read. -/
def left (s : Session) (held : List UInt8) : Nat := held.length + s.host.around.input.length

theorem ReadsOn.left_le (h : ReadsOn s s') (held : List UInt8) : left s' held ≤ left s held :=
  Nat.add_le_add_left (Surroundings.ReadsOn.length_le h) _

/-! ## 2. The history file -/

/-- The files after a history was saved at a path. -/
def saved (files : FileTree) (path : String) (h : History) : FileTree :=
  if h.grown then
    match files.openOutput path with
    | .error _ => files
    | .ok (files', place) => (historyWritten files' place h).1
  else files

/-- **A history that was saved can be read** where it was saved, if it has grown and the file can be
written and has room for it. -/
theorem content_saved {files files' : FileTree} {path : String} {place : Place} {h : History}
    (hgrown : h.grown = true) (hopen : files.openOutput path = .ok (files', place))
    (hregular : ∀ d, files.node? place ≠ some (.device d))
    (hroom : ∀ room, files.rules.room? place = some room → h.encode.length ≤ room) :
    (saved files path h).place path = .ok place ∧
      (saved files path h).node? place = some (.regular historyMode h.encode) := by
  have hsaved : saved files path h = (historyWritten files' place h).1 := by
    rw [saved, if_pos hgrown, hopen]
  rw [hsaved]
  have hfound : files'.place path = .ok place := FileTree.place_of_openOutput hopen
  cases FileTree.opened_of_openOutput hopen with
  | device hnode => exact (hregular _ hnode).elim
  | @file _ mode hmode =>
    have hplace : place ≠ [] := FileTree.ne_root_of_openedMode? hmode
    let emptied := files.setNode place (.regular mode [])
    have hempty : emptied.node? place = some (.regular mode []) := by
      rw [FileTree.node?_setNode files hplace, if_pos rfl]
    -- the file is made private, and then written
    let private' := emptied.setNode place (.regular historyMode [])
    have hprivate : private'.node? place = some (.regular historyMode []) := by
      rw [FileTree.node?_setNode emptied hplace, if_pos rfl]
    have htaken : private'.taken place 0 h.encode = h.encode := by
      rw [FileTree.taken_setNode, FileTree.taken_setNode]
      exact FileTree.taken_of_room fun room h => (Nat.zero_add _).symm ▸ hroom room h
    have hwritten : (historyWritten emptied place h).1 =
        private'.setNode place (.regular historyMode h.encode) := by
      rw [historyWritten, hempty]
      show (private'.append place h.encode).1 = _
      rw [FileTree.append, hprivate]
      show private'.setNode place (.regular historyMode ([] ++ private'.taken place 0 h.encode)) = _
      rw [htaken, List.nil_append]
    have hfile {t : FileTree} {mode : Nat} (h : t.node? place = some (.regular mode [])) :
        t.isDirectory place = false := by
      rw [FileTree.isDirectory, h]
      rfl
    have hext := (FileTree.extends_setNode hplace (hfile hempty) (.regular historyMode [])).trans
      (FileTree.extends_setNode hplace (hfile hprivate) (.regular historyMode h.encode))
    rw [hwritten]
    refine ⟨hext.place hfound, ?_⟩
    rw [FileTree.node?_setNode _ hplace, if_pos rfl]

/-! ## 3. Editors that remember -/

end Shell

open Shell in
/-- **An editor remembers lines and saves them.** `history` is what it remembers, and `held` are the
bytes that it has read beyond a line. -/
structure Editor.Stores {ρ : Type} (ed : Editor Kernel ρ) (history : ρ → History)
    (held : ρ → List UInt8) : Prop where
  /-- While it waits it gives back no input. -/
  prompt {text : String} {s s' : Session} (h : (ed.prompt text).on s = (.ok (.ok ()), s')) :
    ReadsOn s s'
  /-- What is typed is made of bytes, and not remembered by itself. -/
  next {s s' : Session} {r r' : ρ} {x : Reading} (h : (ed.next r).on s = (.ok (x, r'), s'))
    (hx : (∃ text, x = .line text) ∨ x = .interrupted) :
    history r' = history r ∧ left s' (held r') < left s (held r)
  /-- Nor is anything else that ends the input. -/
  ended {s s' : Session} {r r' : ρ} (h : (ed.next r).on s = (.ok (.ended, r'), s')) :
    history r' = history r
  remember (text : String) (r : ρ) :
    history (ed.remember text r) = (history r).add text ∧ held (ed.remember text r) = held r
  /-- Loading comes to an end, whatever there is to load, and reads none of the input. -/
  load (path : String) (r : ρ) (s : Session) : ∃ found r' s',
    (ed.load path r).on s = (.ok (found, r'), s') ∧ held r' = held r ∧ ReadsOn s s'
  /-- Saving writes the history into the file. -/
  save (path : String) (r : ρ) (s : Session) : ∃ fault? s',
    (ed.save path r).on s = (.ok fault?, s') ∧
      s'.host.around.files = saved s.host.around.files path (history r)

namespace Shell

/-! ### The plain editor -/

theorem length_lt_of_nextLine {bs line : List UInt8} (h : (nextLine bs).1 = some line) :
    (nextLine bs).2.length < bs.length := by
  by_cases hmem : newline ∈ bs
  · obtain ⟨a, rest, rfl, ha⟩ := List.eq_append_cons_of_mem hmem
    rw [nextLine_append ha, List.length_append, List.length_cons]
    show rest.length < _
    omega
  · rw [nextLine_of_notMem hmem] at h ⊢
    cases bs with
    | nil => cases h
    | cons b bs => exact Nat.succ_pos _

section Plain

variable {s₀ : Session} {E : Session → Prop}

theorem showPrompt_talks (t : Terminal) (text : String) :
    Meets (Talks s₀) (showPrompt t text) (fun _ => Talks s₀) E := by
  have shown : Meets (Talks s₀) (write (Text.bytes text) >>= fun ok =>
      if ok then pure (.ok ()) else pure (.error [Reason.noSpace.numbered, Reason.noSpace.numbered]) :
        Act Kernel (Except (List String) Unit)) (fun _ => Talks s₀) E := by
    refine (write_talks _).bind fun ok => ?_
    cases ok with
    | true => exact meets_pure fun _ h => h
    | false => exact meets_pure fun _ h => h
  unfold showPrompt
  split
  · exact (note_talks _ _ _ _).bind fun _ => shown
  · split
    · exact shown
    · exact (note_talks _ _ _ _).bind fun _ => meets_pure fun _ h => h

theorem noteOdd_talks (odd : List String) :
    Meets (Talks s₀) (noteOdd odd) (fun _ => Talks s₀) E := by
  induction odd with
  | nil => exact meets_pure fun _ h => h
  | cons text rest ih => exact (note_talks _ _ _ _).bind fun _ => ih

theorem readHistory_talks (path : String) :
    Meets (Talks s₀) (readHistory path) (fun _ => Talks s₀) E := by
  unfold readHistory
  refine meets_get_bind fun s h => Meets.pre (P := Talks s₀) ?_ fun _ e => e ▸ h
  dsimp only
  split
  · exact meets_pure fun _ h => h
  · exact (noteOdd_talks _).bind fun _ => meets_pure fun _ h => h

/-- A history is saved once it was written into its file. -/
theorem on_writeHistory (s : Session) (path : String) (h : History) :
    ∃ fault? s', (writeHistory path h).on s = (.ok fault?, s') ∧
      s'.host.around.files = saved s.host.around.files path h := by
  unfold writeHistory saved
  by_cases hgrown : h.grown = true
  · rw [if_pos hgrown, if_pos hgrown, on_bind, on_get]
    simp only [show (Host.files s.host : FileTree) = s.host.around.files from rfl]
    cases s.host.around.files.openOutput path with
    | error r => exact ⟨_, s, rfl, rfl⟩
    | ok opened => exact ⟨_, _, rfl, rfl⟩
  · rw [if_neg hgrown, if_neg hgrown]
    exact ⟨none, s, rfl, rfl⟩

/-- What is handed out was in the input. -/
theorem left_lt_of_on_next_plain {t : Terminal} {clusters : Clustering} {r r' : Reader} {x : Reading}
    (h : ((Editor.plain t clusters).next r).on s = (.ok (x, r'), s')) (hx : x ≠ .ended) :
    left s' r'.buffer < left s r.buffer := by
  obtain ⟨buffer', input', hleft, hon⟩ := on_next_plain t clusters s r s.host.around.input
  rw [show s.hearing s.host.around.input = s from rfl, h, Prod.mk.injEq, Except.ok.injEq,
    Prod.mk.injEq] at hon
  obtain ⟨⟨rfl, rfl⟩, rfl⟩ := hon
  cases hnext : (nextLine (r.buffer ++ s.host.around.input)).1 with
  | none =>
    rw [hnext] at hx
    exact (hx rfl).elim
  | some line =>
    have hlt := length_lt_of_nextLine hnext
    rw [← hleft, List.length_append, List.length_append] at hlt
    exact hlt

theorem history_of_on_next_plain {t : Terminal} {clusters : Clustering} {r r' : Reader} {x : Reading}
    (h : ((Editor.plain t clusters).next r).on s = (.ok (x, r'), s')) : r'.history = r.history := by
  obtain ⟨buffer', input', -, hon⟩ := on_next_plain t clusters s r s.host.around.input
  rw [show s.hearing s.host.around.input = s from rfl, h, Prod.mk.injEq, Except.ok.injEq,
    Prod.mk.injEq] at hon
  obtain ⟨⟨-, rfl⟩, -⟩ := hon
  rfl

/-- **The plain editor remembers lines and saves them.** -/
theorem stores_plain (t : Terminal) (clusters : Clustering) :
    (Editor.plain t clusters).Stores Reader.history Reader.buffer where
  prompt {text s s'} h := by
    have hsteps : ((Editor.plain t clusters).prompt text).on s =
        (settle >>= fun _ => showPrompt t text).on s := rfl
    rw [hsteps, on_bind] at h
    cases hon : (settle : Act Kernel Unit).on s with
    | mk x s₁ =>
      rw [hon] at h
      cases x with
      | error e => cases h
      | ok u =>
        have htalks : Talks s₁ s' :=
          (showPrompt_talks t text).of_ok (E := fun _ => False) (Talks.refl s₁) h
        exact (readsOn_of_on_settle hon).trans htalks.readsOn
  next h hx := by
    refine ⟨history_of_on_next_plain h, left_lt_of_on_next_plain h ?_⟩
    rintro rfl
    rcases hx with ⟨text, htext⟩ | hinterrupted
    · cases htext
    · cases hinterrupted
  ended h := history_of_on_next_plain h
  remember text r := ⟨rfl, rfl⟩
  load path r s := by
    obtain ⟨x, s', hon, htalks⟩ := (readHistory_talks path).exists_ok (Talks.refl s)
    refine ⟨x.1, { r with history := x.2 }, s', ?_, rfl, htalks.readsOn⟩
    show (readHistory path >>= fun x => pure (x.1, { r with history := x.2 })).on s = _
    rw [on_bind, hon]
    rfl
  save path r s := on_writeHistory s path r.history

end Plain

/-! ## 4. Lines that are entered -/

section Dialogues

variable {ρ : Type}

/-- A line is entered at the next prompt; `text` is what is evaluated. -/
inductive Enters (ed : Editor Kernel ρ) (o : Options) (s : Session) (r : ρ) :
    (text : String) → (s' : Session) → (r' : ρ) → Prop
  | line {s₀ s' : Session} {r' : ρ} {text : String}
      (hprompt : (ed.prompt o.prompt).on s = (.ok (.ok ()), s₀))
      (hnext : (ed.next r).on s₀ = (.ok (.line text, r'), s')) :
      Enters ed o s r (Text.trim text) s' r'

/-- At the next prompt the input is at its end. -/
inductive EndsInput (ed : Editor Kernel ρ) (o : Options) (s : Session) (r : ρ) :
    (s' : Session) → (r' : ρ) → Prop
  | none {s₀ s' : Session} {r' : ρ} (hprompt : (ed.prompt o.prompt).on s = (.ok (.ok ()), s₀))
      (hnext : (ed.next r).on s₀ = (.ok (.ended, r'), s')) : EndsInput ed o s r s' r'

/-- **These lines are entered and evaluated**, one after the other. In between the typing of a line
may be interrupted. -/
inductive Dialogue (ed : Editor Kernel ρ) (o : Options) :
    Session → ρ → (texts : List String) → Session → ρ → Prop
  | start (s : Session) (r : ρ) : Dialogue ed o s r [] s r
  | line {s s₀ s₁ s' : Session} {r r₀ r' : ρ} {text : String} {texts : List String}
      (henters : Enters ed o s r text s₀ r₀) (hheed : (heed text).on s₀ = (.ok (), s₁))
      (hrest : Dialogue ed o s₁ (entered ed true text r₀) texts s' r') :
      Dialogue ed o s r (text :: texts) s' r'
  | interrupted {s s₀ s₁ s' : Session} {r r₀ r' : ρ} {texts : List String}
      (hprompt : (ed.prompt o.prompt).on s = (.ok (.ok ()), s₀))
      (hnext : (ed.next r).on s₀ = (.ok (.interrupted, r₀), s₁))
      (htakes : s₁.host.around.outputFails = false)
      (hrest : Dialogue ed o (s₁.uttered "^C\n") r₀ texts s' r') :
      Dialogue ed o s r texts s' r'

variable {ed : Editor Kernel ρ} {history : ρ → History} {held : ρ → List UInt8} {o : Options}
  {r r' : ρ} {text : String} {texts : List String}

/-- **Every line takes at least one byte of the input.** -/
theorem left_lt_of_enters (hed : ed.Stores history held) (h : Enters ed o s r text s' r') :
    history r' = history r ∧ left s' (held r') < left s (held r) := by
  cases h with
  | line hprompt hnext =>
    obtain ⟨hsame, hlt⟩ := hed.next hnext (Or.inl ⟨_, rfl⟩)
    exact ⟨hsame, hlt.trans_le ((hed.prompt hprompt).left_le _)⟩

/-- A line that is empty is not remembered, and would not be. -/
theorem history_entered (hed : ed.Stores history held) (text : String) (r : ρ) :
    history (entered ed true text r) = (history r).add text ∧
      held (entered ed true text r) = held r := by
  unfold entered
  split
  · rename_i hempty
    rw [History.add, if_pos (Or.inl hempty)]
    exact ⟨rfl, rfl⟩
  · exact hed.remember text r

/-! ## 5. The loop -/

variable {n : Nat}

/-- One turn of the loop. -/
theorem on_readLoop_of_enters (henters : Enters ed o s r text s' r') :
    ∃ raw, Text.trim raw = text ∧ (readLoop ed true o (n + 1) r).on s =
      (takeLine ed true r' raw >>= fun r => readLoop ed true o n r).on s' := by
  cases henters with
  | line hprompt hnext =>
    refine ⟨_, rfl, ?_⟩
    rw [readLoop, on_bind, hprompt]
    dsimp only
    rw [on_bind, hnext]

/-- **The loop goes through the lines that are entered**, and remembers them. Its bound lasts for
what is left of the input. -/
theorem Dialogue.readLoop (hed : ed.Stores history held)
    (hdialogue : Dialogue ed o s r texts s' r') (hbound : left s (held r) ≤ n) :
    history r' = texts.foldl History.add (history r) ∧
      ∃ n', (Shell.readLoop ed true o (n + 1) r).on s =
        (Shell.readLoop ed true o (n' + 1) r').on s' := by
  induction hdialogue generalizing n with
  | start => exact ⟨rfl, n, rfl⟩
  | @line s s₀ s₁ s' r r₀ r' text texts henters hheed hrest ih =>
    obtain ⟨hsame, hlt⟩ := left_lt_of_enters hed henters
    obtain ⟨hadd, hheld⟩ := history_entered hed text r₀
    have hle : left s₁ (held r₀) ≤ left s₀ (held r₀) := (readsOn_of_on_heed hheed).left_le _
    obtain ⟨m, rfl⟩ : ∃ m, n = m + 1 := ⟨n - 1, by omega⟩
    obtain ⟨hhistory, n', hon⟩ := ih (n := m) (by rw [hheld]; omega)
    obtain ⟨raw, rfl, hturn⟩ := on_readLoop_of_enters (n := m + 1) henters
    refine ⟨by rw [hhistory, hadd, hsame]; rfl, n', ?_⟩
    rw [hturn, on_bind, on_takeLine_of_ok hheed]
    exact hon
  | @interrupted s s₀ s₁ s' r r₀ r' texts hprompt hnext htakes hrest ih =>
    obtain ⟨hsame, hlt⟩ := hed.next hnext (Or.inr rfl)
    have hle := (hed.prompt hprompt).left_le (held r)
    have hsaid : left (s₁.uttered "^C\n") (held r₀) = left s₁ (held r₀) := rfl
    obtain ⟨m, rfl⟩ : ∃ m, n = m + 1 := ⟨n - 1, by omega⟩
    obtain ⟨hhistory, n', hon⟩ := ih (n := m) (by omega)
    refine ⟨by rw [hhistory, hsame], n', ?_⟩
    rw [Shell.readLoop, on_bind, hprompt]
    dsimp only
    rw [on_bind, hnext]
    dsimp only
    rw [on_bind, on_writeOrFail_of_takes htakes]
    exact hon

/-- The loop comes to its end with the input. -/
theorem on_readLoop_of_endsInput (hends : EndsInput ed o s r s' r')
    (htakes : s'.host.around.outputFails = false) :
    (readLoop ed true o (n + 1) r).on s = (.ok r', s'.uttered "\n") := by
  cases hends with
  | none hprompt hnext =>
    rw [readLoop, on_bind, hprompt]
    dsimp only
    rw [on_bind, hnext]
    dsimp only
    rw [on_bind, on_writeOrFail_of_takes htakes]
    rfl

/-- A command to quit ends the loop, and the shell. -/
theorem on_readLoop_of_quit (henters : Enters ed o s r text s' r') (hquit : saysQuit text = true) :
    (readLoop ed true o (n + 1) r).on s = (.error (.exited 0), s') := by
  obtain ⟨raw, rfl, hturn⟩ := on_readLoop_of_enters (n := n) henters
  rw [hturn, on_bind, on_takeLine_of_final (on_heed_of_quit hquit s') rfl]

theorem on_saveHistory (hed : ed.Stores history held) (s : Session) (path : String) (r : ρ) :
    ∃ s', (saveHistory ed path r).on s = (.ok (), s') ∧
      s'.host.around.files = saved s.host.around.files path (history r) := by
  obtain ⟨fault?, s₁, hon, hsaved⟩ := hed.save path r s
  cases fault? with
  | none =>
    refine ⟨s₁, ?_, hsaved⟩
    rw [saveHistory, on_bind, hon]
    rfl
  | some fault =>
    obtain ⟨_, s', hnote, htalks⟩ := Meets.exists_ok (note_talks .warn programTarget
      ("failed to save history: " ++ fault) [("path", path)]) (Talks.refl s₁)
    refine ⟨s', ?_, htalks.files.trans hsaved⟩
    rw [saveHistory, on_bind, hon]
    exact hnote

/-- **Loading a history comes to its end**, whatever stands in the file. -/
theorem on_loadHistory (hed : ed.Stores history held) (s : Session) (path : String) (r : ρ) :
    ∃ r' s', (loadHistory ed path r).on s = (.ok r', s') ∧ held r' = held r ∧ ReadsOn s s' := by
  obtain ⟨found, r', s₁, hon, hheld, hreads⟩ := hed.load path r s
  cases found with
  | true =>
    refine ⟨r', s₁, ?_, hheld, hreads⟩
    rw [loadHistory, on_bind, hon]
    rfl
  | false =>
    obtain ⟨_, s', hnote, htalks⟩ := Meets.exists_ok (note_talks .debug programTarget
      "no previous history" [("path", path)]) (Talks.refl s₁)
    refine ⟨r', s', ?_, hheld, hreads.trans htalks.readsOn⟩
    rw [loadHistory, on_bind, hon]
    show (note .debug programTarget "no previous history" [("path", path)] >>= fun _ =>
      (pure r' : Act Kernel ρ)).on s₁ = _
    rw [on_bind, hnote]
    rfl

end Dialogues

end Shell

/-! ## 6. Calls -/

namespace Invocation

open Shell

variable {ρ : Type} {ed : Editor Kernel ρ} {history : ρ → History} {held : ρ → List UInt8}
  {i : Invocation} {o : Options} {r₀ : ρ}

/-- A call that is not refused and does not ask for help is a session from its start to its end. -/
theorem runWith_of_interact (hargs : Options.ofArgs i.home i.args = .ok o) (hhelp : o.help = false)
    {x : Except Ending Unit} {s' : Session}
    (hon : (interact ed i.terminal.interactive o (i.around.input.length + 1) r₀).on (i.session o) =
      (x, s')) :
    i.runWith ed r₀ =
      { output := s'.host.around.output, files := s'.host.around.files, ending := endingOf x } := by
  have hrun : i.runWith ed r₀ = i.converse o ed r₀ := by
    rw [runWith, hargs]
    exact if_neg (by rw [hhelp]; decide)
  have hconverse : i.converse o ed r₀ =
      let a : Act Kernel Unit :=
        interact ed i.terminal.interactive o (i.around.input.length + 1) r₀
      let outcome := a.on (i.session o)
      { output := outcome.2.host.around.output, files := outcome.2.host.around.files
        ending := endingOf outcome.1 } := rfl
  rw [hrun, hconverse]
  simp only [hon]

/-- At a terminal a session is the loop between loading and saving. -/
theorem on_interact_of_interactive {path : String} {r : ρ} {s s₁ : Session}
    (hpath : o.historyPath = some path)
    (hload : (loadHistory ed path r₀).on s = (.ok r, s₁)) (bound : Nat) :
    (interact ed true o bound r₀).on s =
      (readLoop ed true o bound r >>= fun r => saveHistory ed path r).on s₁ := by
  rw [interact]
  simp only [hpath, if_true]
  rw [on_bind, hload]

/-- **A call has saved what was entered.** `h` is what was loaded, `texts` are the lines that were
entered, `files` those that there were at the end of the input. -/
structure Remembers (r : Report) (path : String) (h : History) (texts : List String)
    (files : FileTree) : Prop where
  ending : r.ending = .exited 0
  result : r.files = saved files path (texts.foldl History.add h)
  /-- A line counts that is not empty, unless a hundred others were entered after it. -/
  entries : ∀ before line after, texts = before ++ line :: after → line ≠ "" →
    after.length < History.limit → line ∈ (texts.foldl History.add h).entries
  /-- The file holds them if anything was added, and the file is a regular one that can be opened for
  writing and has room for them. -/
  content : (texts.foldl History.add h).grown = true →
    ∀ files' place, files.openOutput path = .ok (files', place) →
      (∀ d, files.node? place ≠ some (.device d)) →
      (∀ room, files.rules.room? place = some room →
        (texts.foldl History.add h).encode.length ≤ room) →
      r.files.place path = .ok place ∧
        r.files.node? place = some (.regular historyMode (texts.foldl History.add h).encode)
  /-- Otherwise there was nothing to add. -/
  nothing : (texts.foldl History.add h).grown = false →
    ∀ line ∈ texts, line = "" ∨ h.entries.getLast? = some line

/-- **The end of the input saves what was entered; a command to quit saves nothing.** This is what a
call comes to that is at a terminal and has a history file, with any editor that remembers lines and
saves them, whatever is entered and whatever is brought about by that.

* The history is loaded, whatever the file holds.
* Where the input ends after some lines, and the last newline can be written, they are saved.
* Where a line says quit after them, the shell exits with the code 0 as well, but the files are those
  that there were when that line was entered. -/
theorem history_saved_unless_quit (i : Invocation) (hed : ed.Stores history held)
    (hr₀ : held r₀ = []) {o : Options} {path : String}
    (hargs : Options.ofArgs i.home i.args = .ok o) (hhelp : o.help = false)
    (ht : i.terminal.interactive = true) (hpath : o.historyPath = some path) :
    (∃ r s, (loadHistory ed path r₀).on (i.session o) = (.ok r, s)) ∧
    ∀ r s texts s' r', (loadHistory ed path r₀).on (i.session o) = (.ok r, s) →
      Dialogue ed o s r texts s' r' →
      (∀ s'' r'', EndsInput ed o s' r' s'' r'' → s''.host.around.outputFails = false →
        Remembers (i.runWith ed r₀) path (history r) texts s''.host.around.files) ∧
      (∀ text s'' r'', Enters ed o s' r' text s'' r'' → saysQuit text = true →
        (i.runWith ed r₀).ending = .exited 0 ∧
          (i.runWith ed r₀).files = s''.host.around.files) := by
  obtain ⟨r₁, s₁, hload₁, hheld, hreads⟩ := on_loadHistory hed (i.session o) path r₀
  refine ⟨⟨r₁, s₁, hload₁⟩, fun r s texts s' r' hload hdialogue => ?_⟩
  rw [hload₁, Prod.mk.injEq, Except.ok.injEq] at hload
  obtain ⟨rfl, rfl⟩ := hload
  have hleft : left s₁ (held r₁) ≤ i.around.input.length := by
    rw [hheld, hr₀]
    exact (hreads.left_le []).trans (Nat.zero_add _).le
  obtain ⟨hhistory, n, hloop⟩ := hdialogue.readLoop hed hleft
  have hinteract := on_interact_of_interactive hpath hload₁ (i.around.input.length + 1)
  rw [on_bind, hloop, ← ht] at hinteract
  refine ⟨fun s'' r'' hends htakes => ?_, fun text s'' r'' henters hquit => ?_⟩
  · rw [ht, on_readLoop_of_endsInput hends htakes] at hinteract
    obtain ⟨s₂, hsave, hsaved⟩ := on_saveHistory hed (s''.uttered "\n") path r''
    have hremembered : history r'' = texts.foldl History.add (history r₁) := by
      cases hends with
      | none hprompt hnext => rw [hed.ended hnext, hhistory]
    rw [hremembered] at hsaved
    have hrun := runWith_of_interact hargs hhelp (ht ▸ hinteract.trans hsave)
    have hrunFiles : (i.runWith ed r₀).files =
        saved s''.host.around.files path (texts.foldl History.add (history r₁)) := by
      rw [hrun]
      exact hsaved
    constructor
    case ending => rw [hrun]; rfl
    case result => exact hrunFiles
    case entries =>
      rintro before line after rfl hne hafter
      exact History.mem_foldl_add _ before hne hafter
    case content =>
      intro hgrown files' place hopen hregular hroom
      rw [hrunFiles]
      exact content_saved hgrown hopen hregular hroom
    case nothing =>
      intro hsame
      rcases History.foldl_add_cases (history r₁) texts with hgrown | ⟨-, hlines⟩
      · rw [hgrown] at hsame
        cases hsame
      · exact hlines
  · rw [ht, on_readLoop_of_quit henters hquit] at hinteract
    rw [runWith_of_interact hargs hhelp (ht ▸ hinteract)]
    exact ⟨rfl, rfl⟩

/-- A call at a terminal, with a home directory that holds nothing, in which this is typed. -/
def typing (text : String) : Invocation :=
  { home := some "", terminal := { interactive := true, kind := some "dumb" }
    around := { files := .empty, input := Text.bytes text, inputByLine := true } }

/-- The options of such a call. -/
def remembering : Options := { historyPath := some ".jobsh_history" }

/-- The editor of such a call. -/
def typist : Editor Kernel Reader := .plain (typing "").terminal .single

/-- The session after the line `fg | cat` was answered, with this still to be read. -/
def answered (s : Session) (more : List UInt8) : Session :=
  ((say (SyntaxError.unsupported .pipe).message : Act Kernel Unit).on
    (Shell.hearing (s.uttered promptText) more)).2

section Typing

variable {s : Session} (more : List UInt8)

theorem on_prompt_typist (hfilter : s.filter = (typing "").filter remembering)
    (htakes : s.host.around.outputFails = false) (hrest : s.host.Resting) :
    (typist.prompt remembering.prompt).on s = (.ok (.ok ()), s.uttered promptText) := by
  have hplain : (typing "").terminal.isPlain = true := by decide +kernel
  have hquiet : s.filter.allows lineTarget .debug = false := by
    rw [hfilter]
    decide +kernel
  show (settle >>= fun _ => showPrompt (typing "").terminal promptText : Act Kernel _).on s = _
  rw [on_bind, on_settle_of_resting hrest]
  dsimp only
  rw [showPrompt, if_pos hplain, note, on_bind, on_bind, on_get]
  simp only [hquiet, Bool.false_eq_true, if_false, on_pure]
  rw [on_bind, on_write_of_takes htakes]
  rfl

/-- A line that was read is handed out. -/
theorem on_next_typist {r : Reader} {bs rest : List UInt8} {text : String}
    (hread : (readLine (s.host.around.input.length + 1) r.buffer : Act Kernel _).on s =
      (.ok (some bs, rest), Shell.hearing s more)) (htext : lineText? .single bs = some text) :
    (typist.next r).on s = (.ok (.line text, { r with buffer := rest }), Shell.hearing s more) := by
  refine (on_next_of_readLine hread).trans ?_
  rw [readingOf, htext]

/-- A line that is no command is entered and answered. -/
theorem dialogue_typing (hfilter : s.filter = (typing "").filter remembering)
    (htakes : s.host.around.outputFails = false) (hrest : s.host.Resting)
    (hread : (readLine ((s.uttered promptText).host.around.input.length + 1) [] : Act Kernel _).on
      (s.uttered promptText) =
        (.ok (some (Text.bytes "fg | cat\n"), []), Shell.hearing (s.uttered promptText) more)) :
    Dialogue typist remembering s {} ["fg | cat"] (answered s more)
      { history := History.add {} "fg | cat" } := by
  have herror : Command.ofLine "fg | cat" = .error (.unsupported .pipe) := by decide +kernel
  have htext : lineText? .single (Text.bytes "fg | cat\n") = some "fg | cat" := by decide +kernel
  have htrim : Text.trim "fg | cat" = "fg | cat" := by decide +kernel
  obtain ⟨hheed, -⟩ := heed_of_error herror (Shell.hearing (s.uttered promptText) more)
  have henters := Enters.line (on_prompt_typist hfilter htakes hrest)
    (on_next_typist more (r := {}) hread htext)
  rw [htrim] at henters
  exact .line henters hheed (.start _ _)

end Typing

/-- The same line is entered in two sessions. The one that ends with the input saves it; the one
that ends with a command to quit leaves no history file behind. -/
theorem history_saved_unless_quit_typed :
    ((typing "fg | cat\n").run.ending = .exited 0 ∧
        (typing "fg | cat\n").run.files.node? [".jobsh_history"] =
          some (.regular 0o600 (Text.bytes "#V2\nfg | cat\n"))) ∧
      (typing "fg | cat\nquit\n").run.ending = .exited 0 ∧
        (typing "fg | cat\nquit\n").run.files = .empty := by
  have hstores : typist.Stores Reader.history Reader.buffer := stores_plain _ _
  have hempty : Reader.buffer {} = [] := rfl
  constructor
  · let s := (typing "fg | cat\n").session remembering
    have hdialogue := dialogue_typing (s := s) [] rfl rfl (Kernel.resting_of_none rfl rfl) rfl
    obtain ⟨-, hall⟩ := history_saved_unless_quit (typing "fg | cat\n") hstores hempty
      (o := remembering) rfl rfl rfl rfl
    obtain ⟨hends, -⟩ := hall {} s _ _ _ rfl hdialogue
    have hprompt := on_prompt_typist (s := answered s []) rfl rfl
      (Kernel.resting_of_none rfl rfl)
    have hsaved := hends _ _ (.none hprompt rfl) rfl
    exact ⟨hsaved.ending, (hsaved.content rfl _ _ rfl (fun d h => by cases h)
      (fun room h => by cases h)).2⟩
  · let s := (typing "fg | cat\nquit\n").session remembering
    have hdialogue := dialogue_typing (s := s) (Text.bytes "quit\n") rfl rfl
      (Kernel.resting_of_none rfl rfl) rfl
    obtain ⟨-, hall⟩ := history_saved_unless_quit (typing "fg | cat\nquit\n") hstores hempty
      (o := remembering) rfl rfl rfl rfl
    obtain ⟨-, hquits⟩ := hall {} s _ _ _ rfl hdialogue
    have hprompt := on_prompt_typist (s := answered s (Text.bytes "quit\n")) rfl rfl
      (Kernel.resting_of_none rfl rfl)
    have htext : lineText? .single (Text.bytes "quit\n") = some "quit" := by decide +kernel
    have hquit : saysQuit (Text.trim "quit") = true := by decide +kernel
    have hnext := on_next_typist [] (r := { history := History.add {} "fg | cat" })
      (s := (answered s (Text.bytes "quit\n")).uttered promptText) rfl htext
    exact hquits _ _ _ (.line hprompt hnext) hquit

end Invocation

end JobShell
