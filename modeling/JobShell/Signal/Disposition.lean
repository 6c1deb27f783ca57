import JobShell.Signal

/-!
# Dispositions

What a process has arranged to happen when a signal arrives.

* `Handler` lists the reactions there are: those of the shell, those of scripts, and those of
  processes that wait to be continued.
* `Dispositions` assigns one of them, or none, to each signal.
* `Dispositions.installed` is what the shell arranges for itself at its start, and
  `Dispositions.released` what it takes back in a child.
* `Dispositions.afterExec` is what is left when a process starts another program.
-/

namespace JobShell

/-! ## 1. Reactions -/

/-- What a waiting process does when it is continued. -/
inductive OnContinue where
  | stay
  | exit (code : Nat)
  | signalSelf (signal : Nat)
  | signalParent (signal : Nat)
  deriving DecidableEq, Repr

/-- A reaction to a signal. -/
inductive Handler where
  /-- The shell collects what its children report. -/
  | collect
  /-- The shell passes the signal on to the job in the foreground. -/
  | forward
  /-- The shell says so and ends. -/
  | leave
  /-- A script runs a command. -/
  | trap (command : String)
  /-- A process that waits to be continued reacts to it. -/
  | react (action : OnContinue)
  deriving DecidableEq, Repr

/-- What is arranged for a signal. -/
inductive Disposition where
  | default
  | ignore
  | handler (h : Handler)
  deriving DecidableEq, Repr

/-! ## 2. Arrangements -/

/-- What is arranged for each signal. -/
@[ext] structure Dispositions where
  of : Nat → Disposition

namespace Dispositions

def defaults : Dispositions := ⟨fun _ => .default⟩

/-- Arranges something for a signal. -/
def set (d : Dispositions) (n : Nat) (x : Disposition) : Dispositions :=
  ⟨fun k => if k = n then x else d.of k⟩

theorem of_set (d : Dispositions) (n : Nat) (x : Disposition) (k : Nat) :
    (d.set n x).of k = if k = n then x else d.of k := rfl

/-- What the shell arranges: interrupts and stops from the terminal go to the foreground job,
children that change are collected, and the shell itself is not stopped by terminal access. -/
def installed (d : Dispositions) : Dispositions :=
  ((((((d.set Signal.interrupt (.handler .forward)).set Signal.terminalStop (.handler .forward)).set
    Signal.child (.handler .collect)).set Signal.quit (.handler .leave)).set
    Signal.terminalInput .ignore).set Signal.terminalOutput .ignore)

/-- What a child takes back before it starts its program: terminal access stops it again. -/
def released (d : Dispositions) : Dispositions :=
  (d.set Signal.terminalInput .default).set Signal.terminalOutput .default

/-- Starting a program forgets every handler and keeps what is ignored. -/
def afterExec (d : Dispositions) : Dispositions :=
  ⟨fun n => match d.of n with
    | .handler _ => .default
    | x => x⟩

/-- **A program started by the shell finds nothing arranged.** -/
theorem afterExec_released_installed :
    ((defaults.installed).released).afterExec = defaults := by
  ext n
  simp only [afterExec, released, installed, of_set, defaults]
  repeat' split
  all_goals simp_all

end Dispositions

end JobShell
