import JobShell.Proofs.Files
import JobShell.Proofs.Shell.Course
import JobShell.Proofs.Shell.Refusal
import JobShell.Proofs.Shell.Rest
import JobShell.Proofs.Shell.Wait

/-!
# Launches that fail

What comes of a line that asks for a program, if one of its files cannot be opened or the program
cannot be started.

* `AtPrompt` is a session between two lines: no child has anything to report, no signal waits, and
  one more child can be started. Children may be running. A fresh session is one
  (`atPrompt_start`), and after a failure it is one again (`Failed.atPrompt`).
* The acts of the shell are taken apart one by one: a child that has given up is collected
  (`on_handle_of_parts`), while the shell sleeps (`on_suspend_of_parts`) or has nothing to do
  (`on_settle_of_parts`); `on_startJob` is what happens inside the block of a launch.
* `Failed s c said o files target s'` lists all that is different after a launch that failed.
* `failing_launch_stops`: in the foreground only the first obstacle is reported, the program is
  never started, and the table is what it was; no file has changed if one of the files cannot be
  opened. The files may be refused for whatever reason: nothing is asked of the rules of the file
  system.
* `failing_launch_reported`: a command that names a file to write to, and whose program is in the
  way, reports it in that file, not on the shared stream.

The youngest process goes first, so the other children do nothing before the one that fails has
ended.

NOT here: signals that arrive from outside, and a child that cannot be started at all.
-/

namespace JobShell

open Act Diagnostics

/-! ## 1. What is said -/

namespace Surroundings

variable {around : Surroundings}

/-- Nothing but the shared stream is different once something was said. -/
theorem write_shared (around : Surroundings) (bs : List UInt8) :
    (around.write .shared bs).1 = { around with
      output := if around.outputFails then around.output else around.output ++ bs } := by
  unfold write
  dsimp only
  split
  · rfl
  · rfl

theorem write_shared_nil (around : Surroundings) : (around.write .shared []).1 = around := by
  rw [write_shared, List.append_nil, ite_self]

/-- Saying one thing after the other is saying both. -/
theorem write_shared_append (around : Surroundings) (bs bs' : List UInt8) :
    ((around.write .shared bs).1.write .shared bs').1 = (around.write .shared (bs ++ bs')).1 := by
  rw [write_shared, write_shared, write_shared]
  by_cases h : around.outputFails = true
  · simp only [h, if_true]
  · simp only [h, Bool.false_eq_true, if_false, List.append_assoc]

end Surroundings

/-- The kernel once the number of a child was used, and something was said. -/
def Kernel.spent (k : Kernel) (said : List UInt8) : Kernel :=
  { k with nextPid := k.nextPid + 1, around := (k.around.write .shared said).1 }

namespace Shell

section Talk

variable {σ : Type}

/-- The diagnostic line that is written about something, nothing if it is not wanted. -/
def noted (s : Shell σ) (level : Level) (target message : String)
    (fields : List (String × String)) : List UInt8 :=
  if s.filter.allows target level then
    Text.bytes ((Diagnostics.Entry.mk level target message fields).line s.stamp ++ "\n")
  else []

/-- The diagnostic line about a command that was started as a job. -/
def launchNote (s : Shell σ) (c : Command) (cmdline : String) (id : Nat) (pid : Int) :
    List UInt8 :=
  s.noted .debug launchTarget ("launched " ++ cmdline) (stateFields id pid (startState c))

/-- What the shell writes when it has started a command as a job: the diagnostic line, and the
announcement of a command in the background. -/
def launchTalk (s : Shell σ) (c : Command) (cmdline : String) (id : Nat) (pid : Int) : List UInt8 :=
  s.launchNote c cmdline id pid ++
    if c.background then line (Job.announcement id pid cmdline) else []

/-- Where no diagnostic line is wanted, none is written. -/
theorem launchNote_of_quiet {s : Shell σ} (h : s.filter.allows launchTarget .debug = false)
    (c : Command) (cmdline : String) (id : Nat) (pid : Int) : s.launchNote c cmdline id pid = [] :=
  if_neg (by rw [h]; exact Bool.false_ne_true)

end Talk

/-- A diagnostic line is written if it is wanted. -/
theorem on_note (s : Session) (level : Level) (target message : String)
    (fields : List (String × String)) :
    ∃ trace, (note level target message fields : Act Kernel Unit).on s = (.ok (), { s with
      host := (Host.write s.host (s.noted level target message fields)).1, trace }) := by
  rw [note, on_bind, on_get]
  dsimp only
  unfold noted
  by_cases h : s.filter.allows target level = true
  · rw [if_pos h, if_pos h]
    exact ⟨_, rfl⟩
  · rw [if_neg h, if_neg h]
    refine ⟨s.trace, ?_⟩
    show _ = (Except.ok (), { s with
      host := { s.host with around := (s.host.around.write .shared []).1 } })
    rw [Surroundings.write_shared_nil]
    rfl

/-! ## 2. The end of a child -/

section Acts

variable {s : Session} {k kc : Kernel} {pid : Int}

theorem on_collect_of {σ : Type} [Host σ] {s : Shell σ} {host : σ} {status : Option ChildStatus}
    (h : Host.collect s.host = (host, status)) :
    collect.on s = (.ok status, { s with host, trace := .ofAnswer status :: s.trace }) := by
  rw [on_collect, h]

theorem due_of_parts (hparts : k.Parts pid s.host) (hk : k.Free pid)
    (hmask : s.mask.blocks Signal.child = false) : due s = [Signal.child] := by
  rw [due]
  show s.host.pending.filter _ = _
  rw [hparts.pending hk.toQuiet, List.filter_singleton, hmask]
  rfl

/-- The table is brought up to date with the end of a child, about which nothing is said. -/
theorem on_observe_exited (code : Nat) (s : Session) :
    (observe ⟨pid, .exited code⟩).on s = (.ok (), { looked s with
      table := (s.table.observe ⟨pid, .exited code⟩).1
      trace := .used s.mask :: (looked s).trace }) := by
  have hsilent : (s.table.observe ⟨pid, .exited code⟩).2 = none := by
    unfold JobTable.observe
    dsimp only
    split
    · rfl
    · rfl
  exact on_observe_of_none hsilent

/-- **One run of the handler for children**, where one child has given up and no other has
changed. -/
theorem on_handle_of_parts (hparts : k.Parts pid kc) (hk : k.Free pid)
    (hhost : s.host = { kc with pending := [] }) (hd : s.dispositions.CollectsOnChild)
    (hpatience : 2 ≤ s.patience) (depth : Nat) :
    ∃ trace, (handle (deliver depth) Signal.child).on s = (.ok (), { s with
      host := k, table := (s.table.observe ⟨pid, .exited 0⟩).1, trace }) := by
  obtain ⟨n, hn⟩ := Nat.exists_eq_add_of_le' hpatience
  have hcollect : Host.collect s.host = (k, some ⟨pid, .exited 0⟩) := by
    rw [hhost]
    exact hparts.collect hk
  have hlast : Host.collect k = (k, none) := hk.toQuiet.collect
  -- the change is collected and reaches the table
  let s₁ : Session := { s with host := k, trace := .collected ⟨pid, .exited 0⟩ :: s.trace }
  have hdue₁ : due s₁ = [] := due_of_calm hk.calm
  let s₂ : Session := { s₁ with mask := s.mask.withAll }
  let s₃ : Session := { looked s₂ with
    table := (s.table.observe ⟨pid, .exited 0⟩).1
    trace := .used s₂.mask :: (looked s₂).trace }
  have hlocked : (locked (deliver depth) fun _ => observe ⟨pid, .exited 0⟩).on s₁ =
      (.ok (), { s₃ with mask := s.mask }) := by
    have hbody : (observe ⟨pid, .exited 0⟩).on { s₁ with mask := s₁.mask.withAll } = (.ok (), s₃) :=
      on_observe_exited 0 s₂
    have hdue₃ : due { s₃ with mask := s₁.mask } = [] := due_of_calm hk.calm
    refine (on_locked_of_ok hbody).trans ?_
    rw [on_bind, on_deliver_of_due hdue₃]
    rfl
  -- then there is nothing left to collect
  let s₄ : Session := { s₃ with mask := s.mask, trace := .drained :: s₃.trace }
  have hnothing : collect.on { s₃ with mask := s.mask } = (.ok none, s₄) :=
    on_collect_of (s := { s₃ with mask := s.mask }) hlast
  have hloop : (collectAll (deliver depth) s.patience).on s = (.ok (), s₄) := by
    rw [hn, collectAll, on_bind, on_collect_of hcollect]
    show (deliver depth >>= fun _ => _).on s₁ = _
    rw [on_bind, on_deliver_of_due hdue₁]
    simp only [ChildStatus.isNamed, if_true]
    rw [on_bind, hlocked]
    show (collectAll (deliver depth) (n + 1)).on { s₃ with mask := s.mask } = _
    rw [collectAll, on_bind, hnothing]
    rfl
  have hreact : (react (deliver depth) Signal.child).on s = (.ok (), s₄) := by
    rw [react, on_bind, on_get]
    dsimp only
    rw [(hd Signal.child).2 rfl]
    exact hloop
  refine ⟨.handled s₄.table Signal.child :: s₄.trace, ?_⟩
  rw [handle, on_bind, hreact]
  rfl

/-- **The signal for children is taken**, where one child has given up and no other has changed. -/
theorem on_interruptible_of_parts (hparts : k.Parts pid s.host) (hk : k.Free pid)
    (hmask : s.mask.blocks Signal.child = false) (hd : s.dispositions.CollectsOnChild)
    (hpatience : 2 ≤ s.patience) :
    ∃ trace, (interruptible : Act Kernel Unit).on s = (.ok (), { s with
      host := k, table := (s.table.observe ⟨pid, .exited 0⟩).1, trace }) := by
  have hdue : due s = [Signal.child] := due_of_parts hparts hk hmask
  have htaken : (due s).foldl Host.take s.host = { s.host with pending := [] } := by
    rw [hdue]
    show ({ s.host with pending := s.host.pending.filter (· ≠ Signal.child) } : Kernel) = _
    rw [hparts.pending hk.toQuiet]
    rfl
  obtain ⟨n, hn⟩ := Nat.exists_eq_add_of_le' (Nat.le_of_succ_le hpatience)
  let s₁ : Session := { s with
    host := { s.host with pending := [] }, mask := s.mask.withSignal Signal.child }
  obtain ⟨trace, hhandle⟩ :=
    on_handle_of_parts (s := s₁) hparts hk rfl hd hpatience n
  let s₂ : Session := { s with
    host := k, table := (s.table.observe ⟨pid, .exited 0⟩).1, trace }
  have hdue₂ : due s₂ = [] := due_of_calm hk.calm
  refine ⟨trace, ?_⟩
  have hdeliver : (interruptible : Act Kernel Unit).on s = (deliver (n + 1)).on s := by
    rw [interruptible, on_bind, on_get]
    simp only
    rw [hn]
  rw [hdeliver, deliver, on_bind, on_get]
  simp only [htaken]
  rw [hdue]
  show (handle (deliver n) Signal.child >>= fun _ => setMask s.mask >>= fun _ => deliver n).on s₁ =
    _
  rw [on_bind, hhandle]
  show (setMask s.mask >>= fun _ => deliver n).on { s₂ with mask := s₁.mask } = _
  exact on_deliver_of_due hdue₂ n

/-- **The shell sleeps until a child has given up**, and takes the signal for it. -/
theorem on_suspend_of_parts {b : Block} (hsleep : k.Parts pid (s.host.sleep b.before))
    (hk : k.Free pid) (hmask : b.before.blocks Signal.child = false)
    (hd : s.dispositions.CollectsOnChild) (hpatience : 2 ≤ s.patience) :
    ∃ trace, (suspend b : Act Kernel Unit).on s = (.ok (), { s with
      host := k, table := (s.table.observe ⟨pid, .exited 0⟩).1, trace }) := by
  let s₁ : Session := { s with
    host := s.host.sleep b.before, mask := b.before, trace := .slept s.table b.before :: s.trace }
  obtain ⟨trace, htake⟩ := on_interruptible_of_parts (s := s₁) hsleep hk hmask hd hpatience
  refine ⟨trace, ?_⟩
  have hsteps : (suspend b : Act Kernel Unit).on s =
      (interruptible >>= fun _ => setMask s.mask).on s₁ := rfl
  rw [hsteps, on_bind, htake]
  rfl

/-- **The shell lets a child come to its end**, and takes the signal for it. -/
theorem on_settle_of_parts (hparts : k.Parts pid (s.host.settle s.mask)) (hk : k.Free pid)
    (hrest : k.Resting) (hmask : s.mask.blocks Signal.child = false)
    (hd : s.dispositions.CollectsOnChild) (hpatience : 2 ≤ s.patience) :
    ∃ trace, (settle : Act Kernel Unit).on s = (.ok (), { s with
      host := k, table := (s.table.observe ⟨pid, .exited 0⟩).1, trace }) := by
  let s₁ : Session := { s with host := s.host.settle s.mask }
  have hdue : due s₁ = [Signal.child] := due_of_parts hparts hk hmask
  obtain ⟨trace, htake⟩ := on_interruptible_of_parts (s := s₁) hparts hk hmask hd hpatience
  obtain ⟨n, hn⟩ := Nat.exists_eq_add_of_le' (Nat.le_of_succ_le hpatience)
  have hsettle : (settle : Act Kernel Unit).on s = (settleFor (n + 1)).on s := by
    rw [settle, on_bind, on_get]
    simp only
    rw [hn]
  refine ⟨trace, ?_⟩
  rw [hsettle, settleFor, on_bind, on_modify]
  show ((get : Act Kernel Session) >>= fun s => _).on s₁ = _
  rw [on_bind, on_get]
  simp only [hdue]
  show (interruptible >>= fun _ => settleFor n).on s₁ = _
  rw [on_bind, htake]
  exact on_settleFor_of_resting hrest n

end Acts

/-! ## 3. Starting a child -/

/-- **A session at the prompt.** The children are older than the next one, none of them has anything
to report, and no signal waits. -/
structure AtPrompt (s : Session) : Prop where
  wellFormed : s.table.WellFormed
  /-- The jobs are those of children that were started. -/
  tracked : ∀ id a, s.table.get? id = some a → a.pid < s.host.nextPid
  older : ∀ p ∈ s.host.processes, p.pid < s.host.nextPid
  quiet : s.host.Quiet
  /-- The system lets one more child start. -/
  grants : s.host.hasRoom = true
  unblocked : s.mask.blocks Signal.child = false
  collects : s.dispositions.CollectsOnChild
  /-- The bound on what is done over and over leaves room for one signal and one change. -/
  patience : 2 ≤ s.patience

/-- A fresh session is at its prompt, if a child can be started at all. -/
theorem atPrompt_start {around : Surroundings}
    (hgrants : (Session.start around).host.hasRoom = true) :
    (Session.start around).AtPrompt where
  wellFormed := JobTable.wellFormed_empty
  tracked id a ha := by
    rw [show (Session.start around).table = .empty from rfl, JobTable.get?_empty] at ha
    cases ha
  older p hp := nomatch hp
  quiet.calm := rfl
  quiet.unreported p hp := nomatch hp
  grants := hgrants
  unblocked := rfl
  collects := Dispositions.collectsOnChild_installed
  patience := show 2 ≤ 10000 by decide

section Start

variable {s : Session} {c : Command} {text : String} {id : Nat} {t : JobTable}

theorem AtPrompt.fresh (hs : s.AtPrompt) : s.table.ofPid? s.host.nextPid = none := by
  refine JobTable.ofPid?_eq_none_iff.2 fun id a ha hpid => ?_
  have hlt := hs.tracked id a ha
  omega

/-- There is a number for the next child, where there is room. -/
theorem AtPrompt.exists_add (hs : s.AtPrompt) (hroom : s.table.isFull = false)
    (hidle : c.background = false → s.table.foreground? = none) (text : String) :
    ∃ id t, s.table.add s.host.nextPid (startState c) text = .ok (id, t) := by
  refine JobTable.exists_add (startState_eq c) hroom hs.fresh (fun hstate => hidle ?_) text
  by_contra hback
  rw [startState, if_pos (eq_true_of_ne_false hback)] at hstate
  cases hstate

/-- The identifier of the next child is free, whatever is said and written meanwhile. -/
theorem AtPrompt.free (hs : s.AtPrompt) (said : List UInt8) :
    (s.host.spent said).Free s.host.nextPid where
  calm := hs.quiet.calm
  unreported := hs.quiet.unreported
  unused p hp := by
    have hlt := hs.older p hp
    omega

/-- What a child of the session has from the shell. -/
def launchOf (s : Session) (c : Command) : Launch := s.launching ⟨s.mask⟩ c

/-- **A session stays at its prompt when a job was started that runs in the background.** -/
theorem AtPrompt.started (hs : s.AtPrompt) (l : Launch) {state : JobState}
    (hadd : s.table.add s.host.nextPid state text = .ok (id, t)) {host : Kernel}
    (hfork : s.host.fork l = (host, .ok s.host.nextPid)) (hgrants : host.hasRoom = true) :
    ({ s with host, table := t } : Session).AtPrompt := by
  rw [Kernel.fork_of_hasRoom hs.grants] at hfork
  cases hfork
  refine ⟨hs.wellFormed.add hadd, fun k a ha => ?_, fun p hp => ?_, ⟨hs.quiet.calm, fun p hp => ?_⟩,
    hgrants, hs.unblocked, hs.collects, hs.patience⟩
  · show a.pid < s.host.nextPid + 1
    rw [(JobTable.get?_add hadd).2 k] at ha
    split at ha
    · cases ha
      exact Int.lt_succ _
    · exact (hs.tracked k a ha).trans (Int.lt_succ _)
  · show p.pid < s.host.nextPid + 1
    rcases List.mem_append.1 hp with hold | hnew
    · exact (hs.older p hold).trans (Int.lt_succ _)
    · rw [List.mem_singleton.1 hnew]
      exact Int.lt_succ _
  · rcases List.mem_append.1 hp with hold | hnew
    · exact hs.quiet.unreported p hold
    · rw [List.mem_singleton.1 hnew]
      rfl

/-- **Inside the block**, the child is started and entered, and then waited for if it is to run in
the foreground. -/
theorem on_startJob (hs : s.AtPrompt) (hroom : s.table.isFull = false)
    (hadd : s.table.add s.host.nextPid (startState c) text = .ok (id, t)) :
    ∃ trace kc, (s.host.spent (s.launchNote c text id s.host.nextPid)).Seats s.host.nextPid
        { launch := s.launchOf c } kc ∧
      (startJob c text ⟨s.mask⟩).on (inside s) =
        (if c.background then pure (.ok (some (id, s.host.nextPid)))
          else await ⟨s.mask⟩ s.host.nextPid >>= fun _ => pure (.ok none) : Act Kernel _).on
          { inside s with host := kc, table := t, trace } := by
  let k : Kernel := ({ s.host with nextPid := s.host.nextPid + 1 } : Kernel).withChild
    (s.host.newborn (s.launchOf c))
  let s₁ : Session := looked (inside s)
  let s₂ : Session := { s₁ with host := k, trace := .forked s.host.nextPid :: s₁.trace }
  let s₃ : Session := { looked (looked s₂) with
    table := t
    trace := .changed (.add s.host.nextPid (startState c) text) :: (looked (looked s₂)).trace }
  obtain ⟨trace, hnote⟩ := on_note s₃ .debug launchTarget ("launched " ++ text)
    (stateFields id s.host.nextPid (startState c))
  have hstarts : Host.fork s₁.host (s₁.launching ⟨s.mask⟩ c) = (k, .ok s.host.nextPid) :=
    Kernel.fork_of_hasRoom hs.grants (s.launchOf c)
  have hfork : (fork ⟨s.mask⟩ c).on s₁ = (.ok (.ok s.host.nextPid), s₂) := by
    rw [on_fork, hstarts]
    rfl
  have henter : (enter s.host.nextPid (startState c) text).on s₂ = (.ok (.ok id), s₃) :=
    on_enter_of_ok (s := s₂) hadd
  refine ⟨trace, _, (Kernel.seats_newborn s.host (s.launchOf c)).withAround _, ?_⟩
  rw [startJob, on_jobs_bind, if_neg (show ¬ (inside s).table.isFull = true by
    simpa [inside] using hroom)]
  show (fork ⟨s.mask⟩ c >>= fun r => _).on s₁ = _
  rw [on_bind, hfork]
  show (enter s.host.nextPid (startState c) text >>= fun r => _).on s₂ = _
  rw [on_bind, henter]
  dsimp only
  rw [on_bind, hnote]
  rfl

/-! ## 4. What comes of a failure -/

/-- **All that comes of a launch that fails**: the number of the child was used; the shell said what
it says of every launch; and the first obstacle was reported, once, where the output of the command
went by then, with the files that it was opened with. The child is gone, and it never started its
program. -/
structure Failed (s : Session) (c : Command) (said : List UInt8) (o : Obstacle) (files : FileTree)
    (target : Target) (s' : Session) : Prop where
  same : s' = { s with host := s'.host, trace := s'.trace }
  host : s'.host = { s.host with
    nextPid := s.host.nextPid + 1
    around := (s.host.around.write .shared said).1.afterFailure o files target }
  unstarted : ∃ n kc kc',
    (s.host.spent said).Seats s.host.nextPid { launch := s.launchOf c } kc ∧
      Kernel.Underway s.mask s.host.nextPid n kc kc' ∧ s'.host.Parts s.host.nextPid kc'

variable {o : Obstacle} {files : FileTree} {target : Target} {said : List UInt8}

/-- The kernel after a failure. -/
def afterFailure (s : Session) (said : List UInt8) (o : Obstacle) (files : FileTree)
    (target : Target) : Kernel :=
  { s.host.spent said with
    around := (s.host.around.write .shared said).1.afterFailure o files target }

/-- Where nothing happened by itself, nothing does after a failure. -/
theorem resting_afterFailure (hrest : s.host.Resting) (said : List UInt8)
    (o : Obstacle) (files : FileTree) (target : Target) :
    (s.afterFailure said o files target).Resting where
  calm := hrest.calm
  unreported := hrest.unreported
  still p hp := by
    have hclock : (s.afterFailure said o files target).around.clock = s.host.around.clock :=
      (Surroundings.clock_write ..).trans (Surroundings.clock_write ..)
    rw [hclock]
    exact hrest.still p hp

theorem AtPrompt.free_afterFailure (hs : s.AtPrompt) (said : List UInt8) (o : Obstacle)
    (files : FileTree) (target : Target) :
    (s.afterFailure said o files target).Free s.host.nextPid :=
  (hs.free said).withAround _

/-- **The child of a command that fails** comes to its end while the shell sleeps or has nothing to
do. -/
theorem AtPrompt.ends (hs : s.AtPrompt) (hfails : c.Fails s.host.around.files o files target)
    {kc : Kernel}
    (hseats : (s.host.spent said).Seats s.host.nextPid { launch := s.launchOf c } kc) :
    ∃ n kc', n ≤ Kernel.patience ∧ Kernel.Underway s.mask s.host.nextPid n kc kc' ∧
      (s.afterFailure said o files target).Parts s.host.nextPid kc' ∧
      kc'.interrupts s.mask = true := by
  have hfails' : (s.launchOf c).command.Fails (s.host.spent said).around.files o files target := by
    show c.Fails (s.host.around.write .shared said).1.files o files target
    rw [Surroundings.write_shared]
    exact hfails
  obtain ⟨n, kc', hn, hway, hparts⟩ := hfails'.underway hseats (hs.free said) s.mask
  have hpending : kc'.pending = [Signal.child] :=
    hparts.pending (hs.free_afterFailure said o files target).toQuiet
  refine ⟨n, kc', hn.trans (by decide), hway, hparts, ?_⟩
  rw [Kernel.interrupts, hpending, List.any_cons, hs.unblocked]
  rfl

/-- A job whose child has exited leaves the table as it was before. -/
theorem observe_add (ht : s.table.WellFormed) {pid : Int} {state : JobState}
    (hadd : s.table.add pid state text = .ok (id, t)) (code : Nat) :
    (t.observe ⟨pid, .exited code⟩).1 = s.table := by
  have ht' : t.WellFormed := ht.add hadd
  have hjob : t.get? id = some ⟨id, pid, state, .ofString text⟩ := by
    rw [(JobTable.get?_add hadd).2 id, if_pos rfl]
  have hpid : t.ofPid? pid = some id := ht'.ofPid?_eq_some_iff.2 ⟨_, hjob, rfl⟩
  rw [JobTable.observe_of_tracked hpid]
  exact JobTable.remove_add hadd

/-! ## 5. Lines -/

/-- A line asks for a program, and its arguments can be passed on. -/
structure StartsProgram (text : String) (c : Command) : Prop where
  line : Command.ofLine text = .ok (some c)
  program : ∃ name, c.program? = some name ∧ Builtin.ofName? name = none
  passable : ∀ arg ∈ c.args, '\x00' ∉ arg.toList

/-- What is done in the block is all that a line comes to, but for the announcement. -/
theorem StartsProgram.on_evaluate (h : StartsProgram text c) {r : Option (Nat × Int)} {s' : Session}
    (hblock : (locked interruptible (startJob c text)).on s = (.ok (.ok r), s')) :
    (evaluate text).on s =
      (r.elim (pure ()) fun job => say (Job.announcement job.1 job.2 text)).on s' := by
  obtain ⟨name, hname, hprogram⟩ := h.program
  have hargs : ¬ c.args.any hasNul = true := by
    rw [any_hasNul_iff]
    rintro ⟨arg, harg, hmem⟩
    exact h.passable arg harg hmem
  rw [evaluate_of_command h.line, execute_of_program hname hprogram, launch, if_neg hargs, on_bind,
    hblock]
  cases r with
  | none => rfl
  | some job => rfl

/-- **In the foreground**, the shell waits until the child has given up. -/
theorem on_launch_foreground (hs : s.AtPrompt) (hroom : s.table.isFull = false)
    (hback : c.background = false)
    (hadd : s.table.add s.host.nextPid (startState c) text = .ok (id, t))
    (hfails : c.Fails s.host.around.files o files target) :
    ∃ s', (locked interruptible (startJob c text)).on s = (.ok (.ok none), s') ∧
      Failed s c (s.launchTalk c text id s.host.nextPid) o files target s' := by
  have htalk : s.launchTalk c text id s.host.nextPid = s.launchNote c text id s.host.nextPid := by
    rw [launchTalk, hback, if_neg Bool.false_ne_true, List.append_nil]
  rw [htalk]
  obtain ⟨trace, kc, hseats, hstart⟩ := on_startJob hs hroom hadd
  obtain ⟨n, kc', hfew, hway, hparts, hsignal⟩ := hs.ends hfails hseats
  let k := s.afterFailure (s.launchNote c text id s.host.nextPid) o files target
  have hk : k.Free s.host.nextPid := hs.free_afterFailure _ o files target
  -- the wait begins with the job in the foreground
  let s₁ : Session := { inside s with host := kc, table := t, trace }
  have hfg : s₁.table.foregroundPid? = some s.host.nextPid := by
    have ht : t.WellFormed := hs.wellFormed.add hadd
    have hjob := (JobTable.get?_add hadd).2 id
    rw [if_pos rfl] at hjob
    refine ht.foregroundPid?_eq_some_iff.2 ⟨id, _, hjob, ?_, rfl⟩
    rw [startState, hback]
    rfl
  have hsleep : k.Parts s.host.nextPid (kc.sleep s.mask) := by rwa [hway.sleep hfew hsignal]
  obtain ⟨trace', hsuspend⟩ := on_suspend_of_parts (s := looked s₁) (b := ⟨s.mask⟩) hsleep hk
    hs.unblocked hs.collects hs.patience
  -- after one wake-up the job is gone, and the wait is over
  let s₂ : Session := { looked s₁ with
    host := k, table := (t.observe ⟨s.host.nextPid, .exited 0⟩).1, trace := trace' }
  have htable : s₂.table = s.table := observe_add hs.wellFormed hadd 0
  have hwake : (wakeUp ⟨s.mask⟩).on s₁ = (.ok (), s₂) := by
    rw [wakeUp, on_jobs_bind]
    exact hsuspend
  have hover : s₂.table.foregroundPid? ≠ some s.host.nextPid := by
    rw [htable]
    intro howner
    obtain ⟨id', a, ha, -, hpid⟩ := hs.wellFormed.foregroundPid?_eq_some_iff.1 howner
    have hlt := hs.tracked id' a ha
    omega
  obtain ⟨m, hm⟩ := Nat.exists_eq_add_of_le' hs.patience
  have hawait : (await ⟨s.mask⟩ s.host.nextPid).on s₁ = (.ok (), looked s₂) := by
    have hbound : (await ⟨s.mask⟩ s.host.nextPid).on s₁ =
        (awaitFor ⟨s.mask⟩ s.host.nextPid (m + 2)).on s₁ := by
      rw [await, on_bind, on_get]
      show (awaitFor ⟨s.mask⟩ s.host.nextPid s.patience).on s₁ = _
      rw [hm]
    rw [hbound, on_awaitFor_of_wakeUp hfg hwake, on_awaitFor_of_other hover]
  have hbody : (startJob c text ⟨s.mask⟩).on { s with mask := s.mask.withAll } =
      (.ok (.ok none), looked s₂) := by
    refine hstart.trans ?_
    rw [hback, if_neg Bool.false_ne_true, on_bind, hawait]
    rfl
  let s₃ : Session := { looked s₂ with mask := s.mask }
  refine ⟨s₃, ?_, ?_, rfl, n, kc, kc', hseats, hway, hparts⟩
  · rw [on_locked_of_ok hbody, on_bind, on_interruptible_of_calm (s := s₃) hk.calm]
    rfl
  · show s₃ = { s with host := s₃.host, trace := s₃.trace }
    rw [← htable]
    rfl

/-- **In the background**, the child has done nothing yet when it is announced. -/
theorem on_launch_background (hs : s.AtPrompt) (hroom : s.table.isFull = false)
    (hback : c.background = true)
    (hadd : s.table.add s.host.nextPid (startState c) text = .ok (id, t)) :
    ∃ trace kc, (s.host.spent (s.launchNote c text id s.host.nextPid)).Seats s.host.nextPid
        { launch := s.launchOf c } kc ∧
      (locked interruptible (startJob c text)).on s =
        (.ok (.ok (some (id, s.host.nextPid))), { s with host := kc, table := t, trace }) := by
  obtain ⟨trace, kc, hseats, hstart⟩ := on_startJob hs hroom hadd
  let s₁ : Session := { inside s with host := kc, table := t, trace }
  have hbody : (startJob c text ⟨s.mask⟩).on { s with mask := s.mask.withAll } =
      (.ok (.ok (some (id, s.host.nextPid))), s₁) := by
    refine hstart.trans ?_
    rw [hback, if_pos rfl]
    rfl
  let s₂ : Session := { s₁ with mask := s.mask }
  have hcalm : s₂.host.pending = [] := by
    obtain ⟨p, -, -, hkc⟩ := hseats
    show kc.pending = []
    rw [hkc]
    exact hs.quiet.calm
  refine ⟨trace, kc, hseats, ?_⟩
  rw [on_locked_of_ok hbody, on_bind, on_interruptible_of_calm (s := s₂) hcalm]
  rfl

/-- Something more is said while the child waits for its turn. -/
theorem seats_say {l : Launch} {kc : Kernel} {pid : Int} (said : List UInt8)
    (h : (s.host.spent said).Seats pid { launch := l } kc) (bs : List UInt8) :
    (s.host.spent (said ++ bs)).Seats pid { launch := l } (Host.write kc bs).1 := by
  have haround : kc.around = (s.host.around.write .shared said).1 := by
    obtain ⟨p, -, -, rfl⟩ := h
    rfl
  have hmore := h.withAround (kc.around.write .shared bs).1
  rw [haround, Surroundings.write_shared_append] at hmore
  show Kernel.Seats _ _ _ { kc with around := (kc.around.write .shared bs).1 }
  rw [haround, Surroundings.write_shared_append]
  exact hmore

/-- **After a failure in the background**, nothing is left of the job either. -/
theorem on_perform_background (hs : s.AtPrompt) (hrest : s.host.Resting)
    (hroom : s.table.isFull = false) (hline : StartsProgram text c) (hback : c.background = true)
    (hadd : s.table.add s.host.nextPid (startState c) text = .ok (id, t))
    (hfails : c.Fails s.host.around.files o files target) :
    ∃ s', s.perform (evaluate text) = (.ok (), s') ∧
      Failed s c (s.launchTalk c text id s.host.nextPid) o files target s' := by
  let announced : List UInt8 := line (Job.announcement id s.host.nextPid text)
  have htalk : s.launchTalk c text id s.host.nextPid =
      s.launchNote c text id s.host.nextPid ++ announced := by
    rw [launchTalk, hback, if_pos rfl]
  rw [htalk]
  obtain ⟨trace, kc, hseats, hblock⟩ := on_launch_background hs hroom hback hadd
  let s₁ : Session := { s with
    host := (Host.write kc announced).1, table := t, trace := .wrote announced :: trace }
  have hevaluate : (evaluate text).on s = (.ok (), s₁) := (hline.on_evaluate hblock).trans rfl
  have hseats₁ := seats_say _ hseats announced
  obtain ⟨n, kc', hfew, hway, hparts, hsignal⟩ := hs.ends hfails hseats₁
  let k := s.afterFailure (s.launchNote c text id s.host.nextPid ++ announced) o files target
  have hk : k.Free s.host.nextPid := hs.free_afterFailure _ o files target
  have hsettle : k.Parts s.host.nextPid (s₁.host.settle s₁.mask) := by
    rwa [show s₁.host.settle s₁.mask = kc' from hway.settle hfew hsignal]
  obtain ⟨trace', hrest⟩ :=
    on_settle_of_parts hsettle hk (resting_afterFailure hrest _ o files target) hs.unblocked
      hs.collects hs.patience
  have htable : (t.observe ⟨s.host.nextPid, .exited 0⟩).1 = s.table :=
    observe_add hs.wellFormed hadd 0
  refine ⟨{ s with host := k, trace := trace' }, ?_, rfl, rfl, n, _, kc', hseats₁, hway, hparts⟩
  rw [Session.perform, on_bind, hevaluate]
  show (settle >>= fun _ => pure ()).on s₁ = _
  rw [on_bind, hrest]
  show (Except.ok (), ({ s with
    host := k, table := (t.observe ⟨s.host.nextPid, .exited 0⟩).1, trace := trace' } : Session)) = _
  rw [htable]

/-! ## 6. In the foreground -/

/-- After a failure the session is at its prompt again. -/
theorem Failed.atPrompt {s' : Session} (h : Failed s c said o files target s') (hs : s.AtPrompt) :
    s'.AtPrompt := by
  have htable : s'.table = s.table := by rw [h.same]
  have hmask : s'.mask = s.mask := by rw [h.same]
  have hd : s'.dispositions = s.dispositions := by rw [h.same]
  have hpatience : s'.patience = s.patience := by rw [h.same]
  have hprocesses : s'.host.processes = s.host.processes := by rw [h.host]
  have hnext : s'.host.nextPid = s.host.nextPid + 1 := by rw [h.host]
  have hquiet : s'.host.Quiet := by
    have hfree := (hs.free_afterFailure said o files target).toQuiet
    rwa [show s.afterFailure said o files target = s'.host from h.host.symm] at hfree
  have hlimit : s'.host.around.processLimit = s.host.around.processLimit := by
    rw [h.host]
    exact (Surroundings.processLimit_write ..).trans (Surroundings.processLimit_write ..)
  have hgrants : s'.host.hasRoom = s.host.hasRoom := by
    rw [Kernel.hasRoom, Kernel.hasRoom, hlimit, hprocesses]
  exact
    { wellFormed := htable ▸ hs.wellFormed
      tracked := fun id a ha => by
        have hlt := hs.tracked id a (htable ▸ ha)
        omega
      older := fun p hp => by
        have hlt := hs.older p (hprocesses ▸ hp)
        omega
      quiet := hquiet
      grants := hgrants.trans hs.grants
      unblocked := hmask ▸ hs.unblocked
      collects := hd ▸ hs.collects
      patience := hpatience ▸ hs.patience }

/-- **Where the report of a failure is found**, after what the shell has said: at the end of the
shared stream, and no file has changed; or in the file that the output of the command goes to, as
all that it holds, cut at the end of what it can hold, and the shared stream ends with what the
shell has said. A device keeps nothing. -/
inductive Reported (around : Surroundings) (said report : List UInt8) :
    Target → Surroundings → Prop
  | shared : Reported around said report .shared (around.write .shared (said ++ report)).1
  | file {place : Place} {t : FileTree}
      (hothers : ∀ q, q ≠ place → t.node? q = around.files.node? q)
      (hplace : (∃ mode, t.node? place =
          some (.regular mode (around.files.taken place 0 report))) ∨
        ∃ d, around.files.node? place = some (.device d) ∧ t = around.files) :
      Reported around said report (.file place)
        { (around.write .shared said).1 with files := t }

theorem Failed.reported {s' : Session} (h : Failed s c said o files target s')
    (hfails : c.Fails s.host.around.files o files target) :
    Reported s.host.around said (line o.text) target s'.host.around := by
  have haround : s'.host.around =
      (s.host.around.write .shared said).1.afterFailure o files target := by rw [h.host]
  rw [haround]
  cases target with
  | shared =>
    have hsaid : ({ (s.host.around.write .shared said).1 with files } : Surroundings) =
        (s.host.around.write .shared said).1 := by
      rw [hfails.files_of_shared, Surroundings.write_shared]
    rw [Surroundings.afterFailure, hsaid, Surroundings.write_shared_append]
    exact .shared
  | file place =>
    obtain ⟨path, -, hopen⟩ := hfails.openOutput_of_file
    obtain ⟨hothers, hplace⟩ := (FileTree.opened_of_openOutput hopen).append (line o.text)
    exact .file hothers hplace

theorem Failed.resting {s' : Session} (h : Failed s c said o files target s')
    (hrest : s.host.Resting) : s'.host.Resting := by
  rw [show s'.host = s.afterFailure said o files target from h.host]
  exact resting_afterFailure hrest said o files target

/-- **Every launch that fails is reported once, where the output of the command goes by then**,
whether it was to run in the foreground or not. That is the shared stream if one of its files cannot
be opened, or if it has none to write to; if only its program is in the way, the report is in the
file that it writes to, and the shared stream does not show it. -/
theorem failing_launch_reported (hs : s.AtPrompt) (hrest : s.host.Resting)
    (hroom : s.table.isFull = false)
    (hidle : c.background = false → s.table.foreground? = none) (hline : StartsProgram text c)
    (hfails : c.Fails s.host.around.files o files target) :
    ∃ s' id t, s.table.add s.host.nextPid (startState c) text = .ok (id, t) ∧
      s.perform (evaluate text) = (.ok (), s') ∧ s'.table = s.table ∧ s'.AtPrompt ∧
      s'.host.Resting ∧
      Failed s c (s.launchTalk c text id s.host.nextPid) o files target s' ∧
      Reported s.host.around (s.launchTalk c text id s.host.nextPid) (line o.text) target
        s'.host.around ∧
      (target = .shared ↔ c.outfile = none ∨ c.Unopened s.host.around.files) := by
  obtain ⟨id, t, hadd⟩ := hs.exists_add hroom hidle text
  have hperform : ∃ s', s.perform (evaluate text) = (.ok (), s') ∧
      Failed s c (s.launchTalk c text id s.host.nextPid) o files target s' := by
    by_cases hback : c.background = true
    · exact on_perform_background hs hrest hroom hline hback hadd hfails
    · have hfg : c.background = false := eq_false_of_ne_true hback
      obtain ⟨s', hblock, hfailed⟩ := on_launch_foreground hs hroom hfg hadd hfails
      exact ⟨s', perform_of_resting (hfailed.resting hrest) (hline.on_evaluate hblock), hfailed⟩
  obtain ⟨s', hperform, hfailed⟩ := hperform
  have htable : s'.table = s.table := by rw [hfailed.same]
  exact ⟨s', id, t, hadd, hperform, htable, hfailed.atPrompt hs, hfailed.resting hrest, hfailed,
    hfailed.reported hfails, hfails.target_eq_shared_iff⟩

/-- The report of a program that is not there is in the file that it was to write to. -/
theorem failing_launch_reported_outfile :
    let s := Session.start { files := .empty }
    ∃ s', s.perform (evaluate "nosuch > out &") = (.ok (), s') ∧ s'.table = s.table ∧
      s'.host.around.output = line (Job.announcement 1 61001 "nosuch > out &") ∧
      ∃ mode, s'.host.around.files.node? ["out"] =
        some (.regular mode (Text.bytes "nosuch: No such file or directory\n")) := by
  intro s
  have hline : StartsProgram "nosuch > out &" ⟨["nosuch"], none, some "out", true⟩ :=
    ⟨by decide +kernel, ⟨"nosuch", rfl, by decide⟩, by decide⟩
  let opened : FileTree := { nodes := [(["out"], .regular 0o644 [])], workDir := [] }
  have hopens : (Command.mk ["nosuch"] none (some "out") true).Opens s.host.around.files opened
      (.file ["out"]) := .file rfl (by rfl)
  have hfails : (Command.mk ["nosuch"] none (some "out") true).Fails s.host.around.files
      ⟨"nosuch", .noEntry⟩ opened (.file ["out"]) :=
    .program (fun path h => nomatch h) hopens rfl (by rfl)
  have hrest : s.host.Resting := Kernel.resting_of_none rfl rfl
  obtain ⟨s', id, t, hadd, hperform, htable, -, -, -, hreported, -⟩ :=
    failing_launch_reported (atPrompt_start rfl) hrest rfl (fun _ => rfl) hline hfails
  have hid : id = 1 := by
    cases hadd
    rfl
  subst hid
  refine ⟨s', hperform, htable, ?_⟩
  have htalk : s.launchTalk ⟨["nosuch"], none, some "out", true⟩ "nosuch > out &" 1
      s.host.nextPid = line (Job.announcement 1 61001 "nosuch > out &") := by
    rw [launchTalk, launchNote_of_quiet (by decide +kernel), if_pos rfl, List.nil_append]
    rfl
  rw [htalk] at hreported
  generalize s'.host.around = around at hreported
  cases hreported with
  | file hothers hplace =>
    rcases hplace with ⟨mode, hnode⟩ | ⟨d, hdevice, -⟩
    · refine ⟨rfl, mode, hnode.trans ?_⟩
      have hreport : line (Obstacle.text ⟨"nosuch", .noEntry⟩) =
          Text.bytes "nosuch: No such file or directory\n" := by decide +kernel
      rw [hreport]
      rfl
    · cases hdevice

end Start

end Shell

end JobShell
