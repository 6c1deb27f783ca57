import JobShell.Process.Launch
import JobShell.Process.Status
import JobShell.Process.Work

/-!
# Processes

A process as others see it: whether it runs, what it still has to report, and the signals that wait
for it.

* `Process` is a process; `Activity` is what it does.
* `Process.post` sends it a signal, and `Process.next?` is the signal that it takes next.
* `Process.end`, `Process.stop` and `Process.resume` are the changes that its parent is told about.
-/

namespace JobShell

/-! ## 1. Processes -/

/-- Whether a process runs. -/
inductive Condition where
  | running
  | stopped
  | ended
  deriving DecidableEq, Repr

/-- What a process does. -/
inductive Activity where
  /-- It is on its way to its program. -/
  | setup (s : Setup)
  /-- It runs a program. -/
  | work (w : Work)
  /-- It waits for signals. -/
  | idle

/-- A process. -/
structure Process where
  pid : Int
  group : Int
  condition : Condition := .running
  /-- The change that its parent has not collected. -/
  report : Option Change := none
  mask : Mask
  dispositions : Dispositions
  /-- The signals that it has not taken. -/
  waiting : List Nat := []
  activity : Activity

namespace Process

/-! ## 2. Changes -/

/-- The process ends. -/
def finish (p : Process) (c : Change) : Process :=
  { p with condition := .ended, report := some c, waiting := [] }

/-- The process is stopped. -/
def stop (p : Process) (signal : Nat) : Process :=
  { p with condition := .stopped, report := some (.stopped signal) }

/-- The process goes on; a stop that was not collected is forgotten. -/
def resume (p : Process) : Process := { p with condition := .running, report := none }

/-! ## 3. Signals -/

/-- What happens when a signal is taken. -/
def reaction (p : Process) (n : Nat) : Disposition :=
  if Signal.isForced n then .default else p.dispositions.of n

/-- A signal may be dropped when it is sent: it has no effect, or it is ignored. -/
def drops (p : Process) (n : Nat) : Bool :=
  !p.mask.blocks n && (p.reaction n == .ignore ||
    (p.reaction n == .default && Signal.effect n == .nothing))

/-- The process without the signals that wait and would stop it. -/
def withoutStops (p : Process) : Process :=
  { p with waiting := p.waiting.filter fun n => Signal.effect n ≠ .stops }

/-- The process with one more signal waiting; it waits once. -/
def withWaiting (p : Process) (n : Nat) : Process :=
  { p with waiting := if p.waiting.contains n then p.waiting else p.waiting ++ [n] }

/-- Sends a signal to the process. A signal to go on takes effect at once; signals to stop and to go
on drop each other. -/
def post (p : Process) (n : Nat) : Process :=
  if p.condition = .ended ∨ n = 0 then p
  else
    let p := match Signal.effect n with
      | .resumes =>
        if p.condition = .stopped then p.withoutStops.resume else p.withoutStops
      | .stops => { p with waiting := p.waiting.filter (· ≠ Signal.resume) }
      | _ => p
    if p.drops n then p else p.withWaiting n

/-- A signal that ends the process. -/
def isFatal (p : Process) (n : Nat) : Bool :=
  p.reaction n == .default && Signal.effect n == .ends

/-- Whether one signal is taken before another: signals that end the process go first. -/
def takesBefore (p : Process) (a b : Nat) : Bool :=
  if p.isFatal a = p.isFatal b then Signal.goesBefore a b else p.isFatal a

/-- The signal of a list that is taken first. -/
def first? (p : Process) (ns : List Nat) : Option Nat :=
  ns.foldl (fun best n => match best with
    | none => some n
    | some b => if p.takesBefore b n then some b else some n) none

/-- The signal that the process takes next. A stopped process only takes the one that nothing
holds up. -/
def next? (p : Process) : Option Nat :=
  match p.condition with
  | .ended => none
  | .stopped => p.waiting.find? (· = Signal.kill)
  | .running => p.first? (p.waiting.filter fun n => Signal.isForced n || !p.mask.blocks n)

/-- The process with a signal taken. -/
def took (p : Process) (n : Nat) : Process := { p with waiting := p.waiting.filter (· ≠ n) }

/-! ## 4. Readiness -/

/-- The process can do something at a time. -/
def isReady (p : Process) (clock : Nat) : Bool :=
  p.next?.isSome || (p.condition = .running && match p.activity with
    | .setup _ => true
    | .work w => w.isReady clock
    | .idle => false)

/-- The time at which a sleeping process goes on. -/
def wakeAt? (p : Process) : Option Nat :=
  match p.condition, p.activity with
  | .running, .work w => w.wakeAt
  | _, _ => none

/-- The process after time has gone on. -/
def refreshed (p : Process) : Process :=
  match p.activity with
  | .work w => { p with activity := .work { w with turns := 0 } }
  | _ => p

end Process

end JobShell
