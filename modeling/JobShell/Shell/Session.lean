import JobShell.Process.Kernel
import JobShell.Shell.Evaluation

/-!
# Sessions

A shell among processes of a kernel, and what can be done to the two from outside.

* The kernel is a host.
* `Session` is a shell on a kernel; `Session.start` is a fresh one.
* `Session.perform` lets the shell do something and the processes go on until nothing more happens.
* The other functions act on the table directly, start processes that wait, and send signals.
-/

namespace JobShell

instance : Host Kernel where
  write k bs :=
    let (around, ok) := k.around.write .shared bs
    ({ k with around }, ok)
  read k :=
    let (around, bs) := k.around.readChunk
    ({ k with around }, bs)
  files k := k.around.files
  withFiles k files := { k with around := { k.around with files } }
  fork := Kernel.fork
  send := Kernel.post
  sendGroup := Kernel.postGroup
  collect := Kernel.collect
  pending := Kernel.pending
  take k n := { k with pending := k.pending.filter (· ≠ n) }
  sleep := Kernel.sleep
  pass := Kernel.settle

/-- A shell on a kernel. -/
abbrev Session := Shell Kernel

namespace Session

open Shell

/-! ## 1. Running -/

/-- A fresh session in some surroundings. -/
def start (around : Surroundings) : Session := { host := { around } }

/-- Lets the shell do something and the processes go on. -/
def perform (s : Session) (a : Act Kernel α) : Except Ending α × Session :=
  Act.on (do
    let r ← a
    settle
    return r) s

/-- What was written to the shared stream, and the session with that forgotten. -/
def takeOutput (s : Session) : List UInt8 × Session :=
  (s.host.around.output,
    { s with host := { s.host with around := { s.host.around with output := [] } } })

/-! ## 2. The table from outside -/

def addJob (pid : Int) (state : JobState) (cmdline : String) :
    Act Kernel (Except AddError Nat) :=
  locked interruptible fun _ => enter pid state cmdline

def removeJob (id : Nat) : Act Kernel Unit :=
  locked interruptible fun _ => forget id

/-- Changes the state of a job, and tells whether that was possible. -/
def setJobState (id : Nat) (state : JobState) : Act Kernel Bool :=
  locked interruptible fun _ => restate id state

/-- Starts a process that waits, and enters it as a job. -/
def spawnJob (state : JobState) (cmdline : String) (a : OnContinue) :
    Act Kernel (Int × Except AddError Nat) := do
  let s ← get
  let (host, pid) := s.host.spawn a
  set { s with host }
  return (pid, ← addJob pid state cmdline)

/-! ## 3. Signals from outside -/

/-- Sends a signal to a process, or to the shell. -/
def kill (pid : Int) (signal : Nat) : Act Kernel Unit :=
  modify fun s => { s with host := s.host.post pid signal }

/-- A signal arrives at the shell. -/
def raise (signal : Nat) : Act Kernel Unit := kill Kernel.shellPid signal

/-- Sends signals to processes and lets them take effect while the shell takes none. -/
def killTogether (targets : List (Int × Nat)) : Act Kernel Unit :=
  locked interruptible fun _ => do
    modify fun s =>
      { s with host := (targets.foldl (fun k (pid, n) => k.post pid n) s.host).settle s.mask }

/-- Sleeps and takes signals until something is the case or nothing happens any more. -/
def waitUntil (done : Session → Bool) : (bound : Nat) → Act Kernel Unit
  | 0 => pure ()
  | n + 1 => do
    if done (← get) then pure () else do
      modify fun s => { s with host := s.host.sleep s.mask }
      if (due (← get)).isEmpty then pure () else do
        interruptible
        settle
        waitUntil done n

/-- Waits until processes have ended and were collected. -/
def awaitEnds (pids : List Int) : Act Kernel Unit := do
  waitUntil (fun s => pids.all fun pid => (s.host.process? pid).isNone) (← get).patience

/-- How often some bytes stand in others. -/
def occurrences (what : List UInt8) : List UInt8 → Nat
  | [] => 0
  | b :: bs => (if what.isPrefixOf (b :: bs) then 1 else 0) + occurrences what bs

/-- Waits until a text was written some number of times. -/
def awaitText (text : String) (count : Nat) : Act Kernel Unit := do
  waitUntil (fun s => count ≤ occurrences (Text.bytes text) s.host.around.output)
    (← get).patience

/-! ## 4. Signals of the shell itself -/

/-- The signals whose arrangement is of interest. -/
def shownSignals : List (String × Nat) :=
  [("INT", Signal.interrupt), ("QUIT", Signal.quit), ("CHLD", Signal.child),
    ("TSTP", Signal.terminalStop), ("TTIN", Signal.terminalInput),
    ("TTOU", Signal.terminalOutput), ("USR2", Signal.user2)]

/-- What is arranged for them. -/
def arrangements (s : Session) : List (String × Disposition) :=
  shownSignals.map fun (name, n) => (name, s.dispositions.of n)

/-- Takes back in the shell what a child takes back. -/
def release : Act Kernel Unit :=
  modify fun s => { s with dispositions := s.dispositions.released }

/-- Whether the signals for interrupts, for children and for users are blocked. -/
def blockedSignals (m : Mask) : List Bool :=
  [Signal.interrupt, Signal.child, Signal.user2].map m.blocks

/-- The masks in force while blocks are opened inside each other and closed again: before, after
each opening, after each closing. -/
def nestedMasks : (depth : Nat) → Act Kernel (List Mask)
  | 0 => return [(← get).mask]
  | n + 1 => do
    let before := (← get).mask
    let inner ← locked (pure ()) fun _ => nestedMasks n
    return before :: inner ++ [(← get).mask]

end Session

end JobShell
