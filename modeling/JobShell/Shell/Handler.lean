import JobShell.Shell

/-!
# Signals that arrive at the shell

* `JobTable.observe` is what a change of a child means for the table, and the line about it.
* `JobTable.observeAll` does so for changes one after the other.
* `Shell.handle` is what the shell does when it takes a signal: it collects changes, passes a signal
  on to the foreground, or ends.
* `Shell.deliver` takes the signals that wait, whenever some are not blocked. A handler can be
  interrupted by signals that are not blocked while it runs.
* `Shell.locked` is a critical section: no signal is taken inside it.
-/

namespace JobShell

/-! ## 1. Changes of children -/

namespace JobTable

/-- What a change of a child means for the table, and the line about it. -/
def observe (t : JobTable) (s : ChildStatus) : JobTable × Option String :=
  match t.ofPid? s.pid with
  | none => (t, none)
  | some id =>
    match s.change with
    | .stopped signal => (t.withState id .stopped, some (Job.stoppedNotice id s.pid signal))
    | .killed signal => (t.remove id, some (Job.terminatedNotice id s.pid signal))
    | .exited _ => (t.remove id, none)

/-- What changes mean one after the other, and the lines about them. -/
def observeAll (t : JobTable) : List ChildStatus → JobTable × List String
  | [] => (t, [])
  | s :: rest =>
    let (t', line?) := t.observe s
    let (t'', lines) := t'.observeAll rest
    (t'', line?.toList ++ lines)

/-- A change of a process without a job means nothing. -/
theorem observe_of_untracked {t : JobTable} {s : ChildStatus} (h : t.ofPid? s.pid = none) :
    t.observe s = (t, none) := by
  unfold observe
  rw [h]

/-- **It makes no difference where a list of changes is cut.** -/
theorem observeAll_append (t : JobTable) (a b : List ChildStatus) :
    t.observeAll (a ++ b) =
      (((t.observeAll a).1.observeAll b).1,
        (t.observeAll a).2 ++ ((t.observeAll a).1.observeAll b).2) := by
  induction a generalizing t with
  | nil => rfl
  | cons s a ih =>
    have step (l : List ChildStatus) : t.observeAll (s :: l) =
        (((t.observe s).1.observeAll l).1,
          (t.observe s).2.toList ++ ((t.observe s).1.observeAll l).2) := rfl
    rw [List.cons_append, step, ih, step, List.append_assoc]

end JobTable

namespace Shell

variable {σ : Type} [Host σ]

/-! ## 2. Critical sections -/

/-- Does something with all signals blocked. Afterwards what was blocked before is blocked again,
and the signals that had to wait are taken, which is what `pause` does. A refusal of the system is a
result of the body, so that this holds of it too; where the body is the end of the shell, no mask is
left to be put back. -/
def locked (pause : Act σ Unit) (body : Block → Act σ α) : Act σ α := do
  let b ← openBlock
  let r ← body b
  setMask b.leave
  pause
  return r

/-! ## 3. Handlers -/

/-- Brings the table up to date with a change of a child. -/
def observe (c : ChildStatus) : Act σ Unit := do
  let (table, line?) := (← jobs).observe c
  match line? with
  | some text => say text
  | none => pure ()
  setJobs table

/-- Collects changes of children until there are none, or one cannot be reported. -/
def collectAll (pause : Act σ Unit) : (bound : Nat) → Act σ Unit
  | 0 => throw .waits
  | n + 1 => do
    match ← collect with
    | none => pure ()
    | some c =>
      pause
      if c.isNamed then
        locked pause fun _ => observe c
        collectAll pause n

/-- Passes a signal on to the job that owns the foreground. -/
def forward (pause : Act σ Unit) (signal : Nat) : Act σ Unit :=
  locked pause fun _ => do
    match (← jobs).foregroundPid? with
    | some pid => let _ ← sendGroup pid signal
    | none => pure ()

/-- What is arranged for a signal is done. -/
def react (pause : Act σ Unit) (signal : Nat) : Act σ Unit := do
  match (← get).dispositions.of signal with
  | .handler .collect => do collectAll pause (← get).patience
  | .handler .forward => forward pause signal
  | .handler .leave => do
    say farewell
    throw (.exited 1)
  | .handler _ => pure ()
  | .ignore => pure ()
  | .default => if Signal.effect signal = .ends then throw (.killed signal) else pure ()

/-- What the shell does about a signal, up to its end. -/
def handle (pause : Act σ Unit) (signal : Nat) : Act σ Unit := do
  react pause signal
  record (.handled (← get).table signal)

/-! ## 4. Delivery -/

/-- The signals that are taken now, lowest first. -/
def due (s : Shell σ) : List Nat := (Host.pending s.host).filter (!s.mask.blocks ·)

/-- Takes signals that arrived together: the lowest is taken first, and its handler is interrupted
by the others before it starts. -/
def handleAll (pause : Act σ Unit) : List Nat → Act σ Unit
  | [] => pure ()
  | signal :: rest => do
    let before := (← get).mask
    setMask (before.withSignal signal)
    handleAll pause rest
    handle pause signal
    setMask before
    pause

/-- Takes the signals that wait and are not blocked. -/
def deliver : (depth : Nat) → Act σ Unit
  | 0 => do unless (due (← get)).isEmpty do throw .waits
  | n + 1 => do
    let s ← get
    let signals := due s
    set { s with host := signals.foldl Host.take s.host }
    handleAll (deliver n) signals

/-- Takes the signals that wait, at a moment when the shell can be interrupted. -/
def interruptible : Act σ Unit := do deliver (← get).patience

/-- Lets the host go on until no signals wait that the shell would take. -/
def settleFor : (bound : Nat) → Act σ Unit
  | 0 => pure ()
  | n + 1 => do
    modify fun s => { s with host := Host.pass s.host s.mask }
    if (due (← get)).isEmpty then pure () else do
      interruptible
      settleFor n

/-- Lets the host go on while the shell has nothing to do. -/
def settle : Act σ Unit := do settleFor (← get).patience

/-- Sleeps until a signal was taken. The signals that a block holds up are let through meanwhile. -/
def suspend (b : Block) : Act σ Unit := do
  let inside := (← get).mask
  setMask b.before
  modify fun s => { s with host := Host.sleep s.host b.before }
  record (.slept (← get).table b.before)
  interruptible
  setMask inside

/-- Sleeps until a process no longer owns the foreground. -/
def awaitFor (b : Block) (pid : Int) : (bound : Nat) → Act σ Unit
  | 0 => throw .waits
  | n + 1 => do
    if (← jobs).foregroundPid? = some pid then
      suspend b
      awaitFor b pid n

/-- Waits until a process no longer owns the foreground. -/
def await (b : Block) (pid : Int) : Act σ Unit := do awaitFor b pid (← get).patience

end Shell

end JobShell
