import JobShell.Diagnostics
import JobShell.Job.Listing
import JobShell.Shell.Host

/-!
# The shell

The state of a shell on some host, and the few things that everything else is made of.

* `Shell` is the state: the job table, the signals that are blocked, what is arranged for signals,
  and a trace of what the shell did.
* `Act` is something the shell does. It may be the end of the shell, or fail (`Ending`).
* `Act.on` is what comes of doing it: `on_bind` says that things are done one after the other, up to
  an end. `Act.attempt` gives a failure back as a result.
* `say` and `note` write a message and a diagnostic line; `jobs` and `setJobs` are the only access
  to the table, and `enter`, `forget` and `restate` the changes that the shell makes of its own
  accord; `fork`, `send`, `sendGroup` and `collect` deal with processes.

Each of these leaves an `Event` in the trace, so that what a run did can be told from its trace.
-/

namespace JobShell

open Diagnostics

/-! ## 1. State -/

/-- Something that the shell did. -/
inductive Event where
  /-- It wrote these bytes. -/
  | wrote (bs : List UInt8)
  /-- It wrote a diagnostic line. -/
  | noted (e : Entry)
  /-- It used the table while these signals were blocked. -/
  | used (m : Mask)
  /-- It changed the table. -/
  | changed (op : JobTable.Op)
  /-- It could not enter a process. -/
  | refused (pid : Int) (e : AddError)
  /-- It could not change the state of a job. -/
  | kept (id : Nat) (state : JobState)
  /-- It showed this table to the user. -/
  | listed (t : JobTable)
  /-- It slept, with this table, while these signals were blocked. -/
  | slept (t : JobTable) (m : Mask)
  | forked (pid : Int)
  /-- It could not start a child. -/
  | unforked (r : Reason)
  | sent (pid : Int) (signal : Nat)
  /-- It sent a signal to a group, with this table. -/
  | sentGroup (t : JobTable) (pid : Int) (signal : Nat)
  | collected (s : ChildStatus)
  /-- It asked for a change of a child, and there was none left. -/
  | drained
  /-- It came to the end of what it does about a signal, with this table. -/
  | handled (t : JobTable) (signal : Nat)

/-- What an answer to the question for a change of a child leaves in the trace. -/
def Event.ofAnswer : Option ChildStatus → Event
  | some s => .collected s
  | none => .drained

/-- What an attempt to start a child leaves in the trace. -/
def Event.ofFork : Except Reason Int → Event
  | .ok pid => .forked pid
  | .error r => .unforked r

/-- Why something that the shell does does not come to its end. -/
inductive Ending where
  | exited (code : Nat)
  | killed (signal : Nat)
  /-- It has not come back: what it waits for did not happen while its patience lasted. -/
  | waits
  /-- It is given up, for the system refuses what the shell cannot do without. The shell is still
  there. -/
  | failed (r : Reason)
  deriving DecidableEq, Repr

/-- There is no shell any more that could go on. -/
def Ending.isFinal : Ending → Bool
  | failed _ => false
  | _ => true

/-- A shell on a host. -/
structure Shell (σ : Type) where
  host : σ
  table : JobTable := .empty
  mask : Mask := .none
  dispositions : Dispositions := Dispositions.defaults.installed
  /-- The diagnostic lines that are wanted. -/
  filter : Filter := .off
  /-- What stands for the time in front of a diagnostic line. -/
  stamp : String := ""
  /-- How often anything is done over and over before the shell is taken to be at a loss. -/
  patience : Nat := 10000
  /-- What the shell did, the latest first. -/
  trace : List Event := []

/-- Something that a shell does. -/
abbrev Act (σ α : Type) := ExceptT Ending (StateM (Shell σ)) α

/-! ## 2. What comes of it -/

namespace Act

variable {σ α β : Type}

/-- What comes of doing something: its result, or the end of the shell, and the shell after it. -/
def on (a : Act σ α) (s : Shell σ) : Except Ending α × Shell σ := a s

/-- **Two things are done one after the other, unless the first one ends the shell.** -/
theorem on_bind (a : Act σ α) (f : α → Act σ β) (s : Shell σ) :
    (a >>= f).on s =
      match a.on s with
      | (.ok x, s') => (f x).on s'
      | (.error e, s') => (.error e, s') := by
  show (ExceptT.bindCont f (a s).1 (a s).2 : Except Ending β × Shell σ) = _
  unfold on
  cases a s with
  | mk r s' => cases r <;> rfl

/-- Does something, and gives back the reason if it fails. -/
def attempt (a : Act σ α) : Act σ (Except Reason α) :=
  tryCatch (Except.ok <$> a) fun e =>
    match e with
    | .failed r => pure (.error r)
    | e => throw e

/-- **Only a failure becomes a result.** -/
theorem on_attempt (a : Act σ α) (s : Shell σ) :
    a.attempt.on s =
      match a.on s with
      | (.ok x, s') => (.ok (.ok x), s')
      | (.error (.failed r), s') => (.ok (.error r), s')
      | (.error e, s') => (.error e, s') := by
  unfold on attempt
  dsimp only [tryCatch, tryCatchThe, MonadExceptOf.tryCatch, ExceptT.tryCatch, Functor.map,
    ExceptT.map, ExceptT.mk, bind, StateT.bind]
  cases a s with
  | mk r s' =>
    cases r with
    | ok x => rfl
    | error e => cases e <;> rfl

@[simp] theorem on_pure (x : α) (s : Shell σ) : (pure x : Act σ α).on s = (.ok x, s) := rfl

@[simp] theorem on_throw (e : Ending) (s : Shell σ) :
    (throw e : Act σ α).on s = (.error e, s) := rfl

@[simp] theorem on_get (s : Shell σ) : (get : Act σ (Shell σ)).on s = (.ok s, s) := rfl

@[simp] theorem on_set (s s' : Shell σ) : (set s' : Act σ PUnit).on s = (.ok ⟨⟩, s') := rfl

@[simp] theorem on_modify (f : Shell σ → Shell σ) (s : Shell σ) :
    (modify f : Act σ PUnit).on s = (.ok ⟨⟩, f s) := rfl

end Act

namespace Shell

variable {σ : Type}

/-! ## 3. The table and the mask -/

/-- Leaves an event in the trace. -/
def record (e : Event) : Act σ Unit := modify fun s => { s with trace := e :: s.trace }

/-- The table. -/
def jobs : Act σ JobTable := do
  let s ← get
  record (.used s.mask)
  return s.table

/-- Changes the table. -/
def setJobs (table : JobTable) : Act σ Unit := do
  let s ← get
  record (.used s.mask)
  modify fun s => { s with table }

/-- Enters a process as a job, and tells its number or why it is refused. -/
def enter (pid : Int) (state : JobState) (cmdline : String) : Act σ (Except AddError Nat) := do
  match (← jobs).add pid state cmdline with
  | .error e => do
    record (.refused pid e)
    return .error e
  | .ok (id, table) => do
    setJobs table
    record (.changed (.add pid state cmdline))
    return .ok id

/-- Forgets a job. -/
def forget (id : Nat) : Act σ Unit := do
  setJobs ((← jobs).remove id)
  record (.changed (.remove id))

/-- Changes the state of a job, and tells whether that was possible. -/
def restate (id : Nat) (state : JobState) : Act σ Bool := do
  match (← jobs).setState id state with
  | none => do
    record (.kept id state)
    return false
  | some table => do
    setJobs table
    record (.changed (.setState id state))
    return true

/-- Blocks exactly these signals. -/
def setMask (mask : Mask) : Act σ Unit := modify fun s => { s with mask }

/-- Begins a block. The system has no reason to refuse that. -/
def openBlock : Act σ Block := do
  let s ← get
  let (b, mask) := s.mask.enter
  setMask mask
  return b

theorem on_jobs (s : Shell σ) :
    (jobs : Act σ JobTable).on s = (.ok s.table, { s with trace := .used s.mask :: s.trace }) := rfl

theorem on_setJobs (table : JobTable) (s : Shell σ) :
    (setJobs table : Act σ Unit).on s =
      (.ok (), { s with table, trace := .used s.mask :: s.trace }) :=
  rfl

theorem on_setMask (mask : Mask) (s : Shell σ) :
    (setMask mask : Act σ Unit).on s = (.ok (), { s with mask }) := rfl

/-- A block begins with everything blocked, and remembers what was blocked before. -/
theorem on_openBlock (s : Shell σ) :
    (openBlock : Act σ Block).on s = (.ok ⟨s.mask⟩, { s with mask := s.mask.withAll }) := rfl

variable [Host σ]

/-! ## 4. Streams -/

/-- Writes bytes, and tells whether all were taken. -/
def write (bs : List UInt8) : Act σ Bool := do
  let s ← get
  let (host, ok) := Host.write s.host bs
  set { s with host }
  record (.wrote bs)
  return ok

/-- Writes a message. -/
def say (text : String) : Act σ Unit := do
  let _ ← write (line text)

/-- Writes a diagnostic line if it is wanted. -/
def note (level : Level) (target message : String) (fields : List (String × String)) :
    Act σ Unit := do
  let s ← get
  if s.filter.allows target level then
    let e : Entry := ⟨level, target, message, fields⟩
    set { s with host := (Host.write s.host (Text.bytes (e.line s.stamp ++ "\n"))).1 }
    record (.noted e)

/-- A message is written as its line, whatever becomes of it. -/
theorem on_say (text : String) (s : Shell σ) :
    (say text : Act σ Unit).on s =
      (.ok (), { s with
        host := (Host.write s.host (line text)).1, trace := .wrote (line text) :: s.trace }) :=
  rfl

/-! ## 5. Processes -/

/-- Starts a child that runs a command, from inside a block, or tells why that is not possible. -/
def fork (b : Block) (command : Command) : Act σ (Except Reason Int) := do
  let s ← get
  let (host, child) := Host.fork s.host
    { command, block := b, dispositions := s.dispositions, foreground := s.table.foregroundPid? }
  set { s with host }
  record (.ofFork child)
  return child

/-- Sends a signal to a process. -/
def send (pid : Int) (signal : Nat) : Act σ Unit := do
  modify fun s => { s with host := Host.send s.host pid signal }
  record (.sent pid signal)

/-- Sends a signal to a process group, and tells why it could not be sent. -/
def sendGroup (pid : Int) (signal : Nat) : Act σ (Option Reason) := do
  let s ← get
  let (host, fault) := Host.sendGroup s.host pid signal
  set { s with host }
  record (.sentGroup s.table pid signal)
  return fault

/-- Collects a change of a child. -/
def collect : Act σ (Option ChildStatus) := do
  let s ← get
  let (host, status) := Host.collect s.host
  set { s with host }
  record (.ofAnswer status)
  return status

theorem on_collect (s : Shell σ) :
    (collect : Act σ (Option ChildStatus)).on s =
      (.ok (Host.collect s.host).2, { s with
        host := (Host.collect s.host).1
        trace := .ofAnswer (Host.collect s.host).2 :: s.trace }) :=
  rfl

theorem on_sendGroup (pid : Int) (signal : Nat) (s : Shell σ) :
    (sendGroup pid signal : Act σ (Option Reason)).on s =
      (.ok (Host.sendGroup s.host pid signal).2, { s with
        host := (Host.sendGroup s.host pid signal).1
        trace := .sentGroup s.table pid signal :: s.trace }) :=
  rfl

end Shell

end JobShell
