import JobShell.Proofs.Command.Grammar
import JobShell.Proofs.Shell.Handling
import JobShell.Proofs.Token.Rest
import JobShell.Shell.Evaluation
import JobShell.Shell.Session

/-!
# Lines that are refused

A line that the shell cannot do anything about leaves everything as it was, but for one message.

* `Refuses s text message` lists the reasons for which the shell in the state `s` refuses a line, in
  terms of the command that the line says, the table and the files.
* `Declined s message s'` is all that may come of it.
* `refused_line_changes_nothing` says that this is what comes of it, and that a line that says
  nothing does nothing; `Command.ofLine_eq_none_iff` tells which lines these are.
-/

namespace JobShell

open Act

/-! ## 1. Lines that say nothing -/

namespace Command

open Grammar

/-- **The lines that ask for nothing are those that nothing stands on.** -/
theorem ofLine_eq_none_iff (line : String) :
    Command.ofLine line = .ok none ↔ Lexer.SaysNothing line.toList := by
  rw [← Lexer.stream_plain_eq_nil_iff, ofLine_eq_goOn]
  constructor
  · intro hnone
    obtain ⟨ts, hts, hstream | hstream⟩ := Lexer.stream_shape Lexer.plain line.toList
    · rw [hstream] at hnone ⊢
      by_cases h : Grammatical ts
      · rw [goOn_of_grammatical h hts] at hnone
        split at hnone
        · rename_i hempty
          rw [hempty]
          rfl
        · cases hnone
      · obtain ⟨e, he⟩ := goOn_of_not_grammatical h hts
        rw [he] at hnone
        cases hnone
    · obtain ⟨e, he⟩ := goOn_open_quote hts .unclosedQuote
      rw [hstream, he] at hnone
      cases hnone
  · intro hempty
    rw [hempty]
    rfl

end Command

/-- An event that is about the table and leaves it alone. -/
def Event.IsLook : Event → Prop
  | used _ | listed _ => True
  | _ => False

namespace Shell

variable {σ : Type} [Host σ]

/-! ## 2. Reasons to refuse a line -/

/-- **The shell refuses a line, and says why.** -/
inductive Refuses (s : Shell σ) (text : String) : (message : String) → Prop
  | syntaxError {e : SyntaxError} (hline : Command.ofLine text = .error e) :
      Refuses s text e.message
  /-- No program can be given a NUL character. -/
  | nul {c : Command} {name : String} (hline : Command.ofLine text = .ok (some c))
      (hname : c.program? = some name) (hprogram : Builtin.ofName? name = none)
      (hnul : ∃ arg ∈ c.args, '\x00' ∈ arg.toList) : Refuses s text (badArguments name)
  | full {c : Command} {name : String} (hline : Command.ofLine text = .ok (some c))
      (hname : c.program? = some name) (hprogram : Builtin.ofName? name = none)
      (hnul : ∀ arg ∈ c.args, '\x00' ∉ arg.toList) (hfull : s.table.isFull = true) :
      Refuses s text (ownMessage AddError.full.message)
  /-- A command to go on names no job: it has no argument, or one that is no reference. -/
  | badReference {c : Command} {b : Builtin} {e : RefError}
      (hline : Command.ofLine text = .ok (some c)) (hname : c.program? = some b.name)
      (hb : b = .background ∨ b = .foreground) (href : JobRef.ofArg b.name c.args[1]? = .error e) :
      Refuses s text e.message
  /-- There is no job that is meant. -/
  | unresolved {c : Command} {b : Builtin} {arg : String} {ref : JobRef}
      (hline : Command.ofLine text = .ok (some c)) (hname : c.program? = some b.name)
      (hb : b = .background ∨ b = .foreground) (harg : c.args[1]? = some arg)
      (href : JobRef.ofArg b.name (some arg) = .ok ref) (hjob : ref.resolve? s.table = none) :
      Refuses s text (RefError.noSuchJob arg).message
  /-- The file that the listing is to go to cannot be opened. -/
  | unopened {c : Command} {path : String} {r : Reason}
      (hline : Command.ofLine text = .ok (some c)) (hname : c.program? = some Builtin.jobs.name)
      (hpath : c.outfile = some path) (hopen : (Host.files s.host).openOutput path = .error r) :
      Refuses s text (Obstacle.text ⟨path, r⟩)
  /-- The file does not take all of the listing. -/
  | unlisted {c : Command} {path : String} {files : FileTree} {place : Place}
      (hline : Command.ofLine text = .ok (some c)) (hname : c.program? = some Builtin.jobs.name)
      (hpath : c.outfile = some path)
      (hopen : (Host.files s.host).openOutput path = .ok (files, place))
      (hrefused : (appendAll files place s.table.listingParts).2 = false) :
      Refuses s text listingFault

/-! ## 3. What may come of it -/

/-- **All that may come of a refusal**: looks at the table, a file that was opened for the listing,
and then the message. -/
structure Declined (s : Shell σ) (message : String) (s' : Shell σ) : Prop where
  same : s' = { s with host := s'.host, trace := s'.trace }
  host : ∃ h, (h = s.host ∨ ∃ files, h = Host.withFiles s.host files) ∧
    s'.host = (Host.write h (line message)).1
  trace : ∃ looks, (∀ e ∈ looks, e.IsLook) ∧
    s'.trace = .wrote (line message) :: (looks ++ s.trace)

variable {s s' : Shell σ} {text message : String} {c : Command} {name : String}

/-- Only the message comes of it. -/
theorem declined_said : Declined s message ((say message : Act σ Unit).on s).2 where
  same := rfl
  host := ⟨s.host, Or.inl rfl, rfl⟩
  trace := ⟨[], fun _ h => (List.not_mem_nil h).elim, rfl⟩

/-- The shell after it has looked at the table and then said something. -/
def saidAfterLook (s : Shell σ) (message : String) : Shell σ :=
  { s with
    host := (Host.write s.host (line message)).1
    trace := .wrote (line message) :: .used s.mask.withAll :: s.trace }

theorem declined_saidAfterLook : Declined s message (saidAfterLook s message) where
  same := rfl
  host := ⟨s.host, Or.inl rfl, rfl⟩
  trace := ⟨[.used s.mask.withAll], fun _ h => List.mem_singleton.1 h ▸ trivial, rfl⟩

/-- The shell after it could not list its jobs in a file. -/
def saidAfterListing (s : Shell σ) (files : FileTree) : Shell σ :=
  { s with
    host := (Host.write (Host.withFiles s.host files) (line listingFault)).1
    trace := .wrote (line listingFault) :: .listed s.table :: .used s.mask.withAll :: s.trace }

theorem declined_saidAfterListing (files : FileTree) :
    Declined s listingFault (saidAfterListing s files) where
  same := rfl
  host := ⟨_, Or.inr ⟨files, rfl⟩, rfl⟩
  trace := by
    refine ⟨[.listed s.table, .used s.mask.withAll], fun e he => ?_, rfl⟩
    rcases List.mem_pair.1 he with rfl | rfl
    · trivial
    · trivial

/-- How a line comes to its end after a refusal: at once, or by taking the signals that had to wait;
if none is due, there are none to take. -/
structure Concludes (text : String) (s s' : Shell σ) : Prop where
  rest : (evaluate text).on s = (.ok (), s') ∨ (evaluate text).on s = interruptible.on s'
  undisturbed : due s' = [] → (evaluate text).on s = (.ok (), s')

theorem concludes_at_once (h : (evaluate text).on s = (.ok (), s')) : Concludes text s s' :=
  ⟨Or.inl h, fun _ => h⟩

theorem concludes_interruptible (h : (evaluate text).on s = interruptible.on s') :
    Concludes text s s' := by
  refine ⟨Or.inr h, fun hdue => ?_⟩
  rw [h, interruptible, on_bind, on_get]
  exact on_deliver_of_due hdue _

/-! ## 4. Commands -/

theorem evaluate_of_command (hline : Command.ofLine text = .ok (some c)) :
    (evaluate text : Act σ Unit) = execute c text := by
  rw [evaluate, hline]

theorem execute_of_builtin {b : Builtin} (hname : c.program? = some b.name) (cmdline : String) :
    (execute c cmdline : Act σ Unit) = runBuiltin c b := by
  rw [execute, hname]
  simp only [Builtin.ofName?_eq_some_iff.2 (rfl : b.name = b.name)]

theorem execute_of_program (hname : c.program? = some name) (hprogram : Builtin.ofName? name = none)
    (cmdline : String) : (execute c cmdline : Act σ Unit) = launch c cmdline := by
  rw [execute, hname]
  simp only [hprogram]

/-- A line that asks for the jobs lists them. -/
theorem evaluate_of_jobs (hline : Command.ofLine text = .ok (some c))
    (hname : c.program? = some Builtin.jobs.name) : (evaluate text : Act σ Unit) = listJobs c := by
  rw [evaluate_of_command hline, execute_of_builtin hname, runBuiltin]

/-- The shell inside a block that it comes out of as `s'`. -/
def inside (s' : Shell σ) : Shell σ := { s' with mask := s'.mask.withAll }

/-- What comes of a line whose command does all it does inside a block. -/
theorem concludes_locked {body : Block → Act σ Unit}
    (hact : (evaluate text : Act σ Unit) = locked interruptible body) (hmask : s'.mask = s.mask)
    (hbody : (body ⟨s.mask⟩).on (inside s) = (.ok (), inside s')) : Concludes text s s' := by
  refine concludes_interruptible ?_
  rw [hact, on_locked_of_ok hbody, bind_pure_unit, ← hmask]
  rfl

theorem any_hasNul_iff {args : List String} :
    args.any hasNul = true ↔ ∃ arg ∈ args, '\x00' ∈ arg.toList := by
  simp only [List.any_eq_true, hasNul, List.contains_eq_mem, decide_eq_true_eq]

/-- A program that cannot be given its arguments is not started. -/
theorem concludes_nul (hline : Command.ofLine text = .ok (some c)) (hname : c.program? = some name)
    (hprogram : Builtin.ofName? name = none) (hnul : ∃ arg ∈ c.args, '\x00' ∈ arg.toList) :
    Concludes text s ((say (badArguments name) : Act σ Unit).on s).2 := by
  have hhead : c.args.headD "" = name := by
    rw [List.headD_eq_head?_getD, show c.args.head? = some name from hname]
    rfl
  refine concludes_at_once ?_
  rw [evaluate_of_command hline, execute_of_program hname hprogram, launch,
    if_pos (any_hasNul_iff.2 hnul), hhead]
  rfl

/-- A program is not started while every place in the table is taken. -/
theorem concludes_full (hline : Command.ofLine text = .ok (some c)) (hname : c.program? = some name)
    (hprogram : Builtin.ofName? name = none) (hnul : ∀ arg ∈ c.args, '\x00' ∉ arg.toList)
    (hfull : s.table.isFull = true) :
    Concludes text s (saidAfterLook s (ownMessage AddError.full.message)) := by
  have hargs : ¬ c.args.any hasNul = true := by
    rw [any_hasNul_iff]
    rintro ⟨arg, harg, hmem⟩
    exact hnul arg harg hmem
  let s' := saidAfterLook s (ownMessage AddError.full.message)
  have hbody : (startJob c text ⟨s.mask⟩).on (inside s) = (.ok (.ok none), inside s') := by
    rw [startJob, on_jobs_bind, if_pos (show (inside s).table.isFull = true from hfull)]
    rfl
  have hlaunch : (launch c text).on s = interruptible.on s' := by
    rw [launch, if_neg hargs, on_bind, on_locked_of_ok hbody, ← on_bind, bind_assoc]
    simp only [pure_bind]
    rw [bind_pure_unit]
    rfl
  refine concludes_interruptible ?_
  rw [evaluate_of_command hline, execute_of_program hname hprogram, hlaunch]

/-- A command to go on does all it does inside a block. -/
theorem runBuiltin_resume {b : Builtin} (hb : b = .background ∨ b = .foreground) (c : Command) :
    ∃ state, (runBuiltin c b : Act σ Unit) = locked interruptible (resumeJob b.name state c) := by
  rcases hb with rfl | rfl
  · exact ⟨.background, rfl⟩
  · exact ⟨.foreground, rfl⟩

/-- A command to go on that names no job is not heard. -/
theorem concludes_badReference {b : Builtin} {e : RefError}
    (hline : Command.ofLine text = .ok (some c)) (hname : c.program? = some b.name)
    (hb : b = .background ∨ b = .foreground) (href : JobRef.ofArg b.name c.args[1]? = .error e) :
    Concludes text s ((say e.message : Act σ Unit).on s).2 := by
  obtain ⟨state, hact⟩ := runBuiltin_resume (σ := σ) hb c
  rw [← execute_of_builtin hname text, ← evaluate_of_command hline] at hact
  refine concludes_locked hact rfl ?_
  rw [resumeJob, href]
  rfl

/-- A command to go on that means no job does nothing to any. -/
theorem concludes_unresolved {b : Builtin} {arg : String} {ref : JobRef}
    (hline : Command.ofLine text = .ok (some c)) (hname : c.program? = some b.name)
    (hb : b = .background ∨ b = .foreground) (harg : c.args[1]? = some arg)
    (href : JobRef.ofArg b.name (some arg) = .ok ref) (hjob : ref.resolve? s.table = none) :
    Concludes text s (saidAfterLook s (RefError.noSuchJob arg).message) := by
  obtain ⟨state, hact⟩ := runBuiltin_resume (σ := σ) hb c
  rw [← execute_of_builtin hname text, ← evaluate_of_command hline] at hact
  refine concludes_locked hact rfl ?_
  rw [resumeJob, harg, href]
  show (jobs >>= fun t => _).on _ = _
  rw [on_jobs_bind]
  simp only [show ref.resolve? (inside s).table = none from hjob]
  rfl

/-- Jobs are not listed in a file that cannot be opened. -/
theorem concludes_unopened {path : String} {r : Reason}
    (hline : Command.ofLine text = .ok (some c)) (hname : c.program? = some Builtin.jobs.name)
    (hpath : c.outfile = some path) (hopen : (Host.files s.host).openOutput path = .error r) :
    Concludes text s ((say (Obstacle.text ⟨path, r⟩) : Act σ Unit).on s).2 := by
  have hact : (evaluate text : Act σ Unit) = _ := evaluate_of_jobs hline hname
  rw [listJobs] at hact
  refine concludes_locked hact rfl ?_
  simp only [hpath]
  rw [on_bind, on_get]
  simp only [show (Host.files (inside s).host).openOutput path = .error r from hopen]
  rfl

/-- The jobs that a file does not take are reported. -/
theorem concludes_unlisted {path : String} {files : FileTree} {place : Place}
    (hline : Command.ofLine text = .ok (some c)) (hname : c.program? = some Builtin.jobs.name)
    (hpath : c.outfile = some path)
    (hopen : (Host.files s.host).openOutput path = .ok (files, place))
    (hrefused : (appendAll files place s.table.listingParts).2 = false) :
    Concludes text s
      (saidAfterListing s (appendAll files place s.table.listingParts).1) := by
  have hact : (evaluate text : Act σ Unit) = _ := evaluate_of_jobs hline hname
  rw [listJobs] at hact
  refine concludes_locked hact rfl ?_
  simp only [hpath]
  rw [on_bind, on_get]
  simp only [show (Host.files (inside s).host).openOutput path = .ok (files, place) from hopen]
  rw [on_jobs_bind]
  simp only [show (appendAll files place (inside s).table.listingParts).2 = false from hrefused]
  rfl

/-! ## 5. All of them -/

/-- **Every refusal is declined.** -/
theorem Refuses.declined (h : Refuses s text message) :
    ∃ s', Declined s message s' ∧ Concludes text s s' := by
  cases h with
  | syntaxError hline =>
    refine ⟨_, declined_said, concludes_at_once ?_⟩
    rw [evaluate, hline]
    rfl
  | nul hline hname hprogram hnul =>
    exact ⟨_, declined_said, concludes_nul hline hname hprogram hnul⟩
  | full hline hname hprogram hnul hfull =>
    exact ⟨_, declined_saidAfterLook, concludes_full hline hname hprogram hnul hfull⟩
  | badReference hline hname hb href =>
    exact ⟨_, declined_said, concludes_badReference hline hname hb href⟩
  | unresolved hline hname hb harg href hjob =>
    exact ⟨_, declined_saidAfterLook, concludes_unresolved hline hname hb harg href hjob⟩
  | unopened hline hname hpath hopen =>
    exact ⟨_, declined_said, concludes_unopened hline hname hpath hopen⟩
  | unlisted hline hname hpath hopen hrefused =>
    exact ⟨_, declined_saidAfterListing _, concludes_unlisted hline hname hpath hopen hrefused⟩

omit [Host σ] in
/-- A message is a line of its own. -/
theorem getLast?_line (message : String) : (line message).getLast? = some newline := by
  rw [line_eq, List.getLast?_append_of_ne_nil _ (List.cons_ne_nil _ _)]
  rfl

/-- **A line that is refused changes nothing**: the table is what it was, no process was started, no
signal was sent, and the last thing that was done was to write one message, which ends in a newline
and has at most 1088 bytes. What may be left to do is to take the signals that had to wait; if none
is due, the line comes to its end so. And a line on which nothing stands but blanks and a comment,
which are the lines that ask for nothing, does nothing at all. -/
theorem refused_line_changes_nothing (s : Shell σ) (text : String) :
    (∀ message, Refuses s text message → ∃ s', Declined s message s' ∧ s'.table = s.table ∧
        (line message).getLast? = some newline ∧ (line message).length ≤ 1088 ∧
        Concludes text s s') ∧
      (Command.ofLine text = .ok none ↔ Lexer.SaysNothing text.toList) ∧
      (Command.ofLine text = .ok none → (evaluate text).on s = (.ok (), s)) := by
  refine ⟨fun message h => ?_, Command.ofLine_eq_none_iff text, fun h => ?_⟩
  · obtain ⟨s', hdeclined, hconcludes⟩ := h.declined
    have htable : s'.table = s.table := by rw [hdeclined.same]
    exact ⟨s', hdeclined, htable, getLast?_line message, length_line_le message, hconcludes⟩
  · rw [evaluate, h]
    rfl

/-- A session with one job, which is stopped. -/
def oneStopped : Session :=
  { Session.start { files := .empty } with
    table := JobTable.run .empty [.add 61001 .background "cat", .setState 1 .stopped] }

/-- A number that is too large by far means no job, although one has the number that it would wrap
around to. -/
theorem refused_line_changes_nothing_number :
    (∃ s', (evaluate "fg '%18446744073709551617'").on oneStopped = (.ok (), s') ∧
        s'.table = oneStopped.table) ∧
      (evaluate " \u3000# fg %1").on oneStopped = (.ok (), oneStopped) := by
  have hline : Command.ofLine "fg '%18446744073709551617'" =
      .ok (some ⟨["fg", "%18446744073709551617"], none, none, false⟩) := by decide +kernel
  have hrefuses : Refuses oneStopped "fg '%18446744073709551617'"
      (RefError.noSuchJob "%18446744073709551617").message := by
    have href : JobRef.ofArg "fg" (some "%18446744073709551617") = .ok (.job 0) := by
      decide +kernel
    exact .unresolved (b := .foreground) hline rfl (Or.inr rfl) rfl href (by decide +kernel)
  constructor
  · obtain ⟨s', hdeclined, htable, -, -, hconcludes⟩ :=
      (refused_line_changes_nothing oneStopped _).1 _ hrefuses
    refine ⟨s', hconcludes.undisturbed ?_, htable⟩
    obtain ⟨h, hhost, hwritten⟩ := hdeclined.host
    have hpending : s'.host.pending = [] := by
      rw [hwritten]
      rcases hhost with rfl | ⟨files, rfl⟩
      · rfl
      · rfl
    rw [due, show Host.pending s'.host = s'.host.pending from rfl, hpending]
    rfl
  · have hblank : Command.ofLine " \u3000# fg %1" = .ok none := by decide +kernel
    exact (refused_line_changes_nothing oneStopped _).2.2 hblank

end Shell

end JobShell
