import JobShell.Signal

/-!
# Statuses of children

* `ChildStatus` is a change that a process reports to its parent.
* `ChildStatus.isNamed` leaves out the changes that cannot be reported: a death by a signal without
  a name cannot be told from there being nothing left, although the process is gone.
-/

namespace JobShell

/-- How a process changed. -/
inductive Change where
  | exited (code : Nat)
  | killed (signal : Nat)
  | stopped (signal : Nat)
  deriving DecidableEq, Repr

/-- A change of a process. -/
structure ChildStatus where
  pid : Int
  change : Change
  deriving DecidableEq, Repr

namespace ChildStatus

/-- The process does not exist any more. -/
def isEnd (s : ChildStatus) : Bool :=
  match s.change with
  | .stopped _ => false
  | _ => true

/-- The change can be reported. -/
def isNamed (s : ChildStatus) : Bool :=
  match s.change with
  | .killed signal => Signal.isNamed signal
  | _ => true

/-- Only a death by a signal without a name cannot be reported. -/
theorem change_of_not_isNamed {s : ChildStatus} (h : s.isNamed = false) :
    ∃ n, s.change = .killed n ∧ Signal.isNamed n = false := by
  unfold isNamed at h
  split at h
  · rename_i n hn
    exact ⟨n, hn, h⟩
  · cases h

end ChildStatus

end JobShell
