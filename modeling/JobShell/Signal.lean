/-!
# Signals

Signals are known by their numbers.

* `Signal.effect` is what a signal does to a process that has made no arrangements.
* `Signal.isNamed` tells the signals that a child's status can report by name: the numbers above
  them serve real-time use and have none.
* `Signal.ofName?` is the number that a name or a numeral stands for.
-/

namespace JobShell.Signal

/-! ## 1. Numbers -/

def interrupt : Nat := 2
def quit : Nat := 3
def kill : Nat := 9
def user2 : Nat := 12
def terminate : Nat := 15
def child : Nat := 17
def resume : Nat := 18
def stop : Nat := 19
def terminalStop : Nat := 20
def terminalInput : Nat := 21
def terminalOutput : Nat := 22

/-- The largest number of a signal. -/
def largest : Nat := 64

/-! ## 2. Effects -/

/-- What a signal does to a process that has made no arrangements. -/
inductive Effect where
  | nothing
  | stops
  | resumes
  | ends
  deriving DecidableEq, Repr

/-- The effect of a signal. -/
def effect (n : Nat) : Effect :=
  if n = 0 ∨ n = 17 ∨ n = 23 ∨ n = 28 then .nothing
  else if n = 18 then .resumes
  else if 19 ≤ n ∧ n ≤ 22 then .stops
  else .ends

/-- Nothing a process arranges changes what this signal does. -/
def isForced (n : Nat) : Bool := n = kill || n = stop

/-- The signals that a status reports by name. -/
def isNamed (n : Nat) : Bool := 1 ≤ n && n ≤ 31

/-- The signals for faults of a program. They go first when several wait. -/
def isFault (n : Nat) : Bool := [4, 5, 7, 8, 11, 31].contains n

/-- Whether a signal goes before another one when both wait. -/
def goesBefore (a b : Nat) : Bool :=
  if isFault a = isFault b then a ≤ b else isFault a

/-- Every stop is reported by name. -/
theorem isNamed_of_effect_stops {n : Nat} (h : effect n = .stops) : isNamed n = true := by
  unfold effect at h
  repeat' split at h
  all_goals simp_all
  rename_i h1
  simp only [isNamed, Bool.and_eq_true, decide_eq_true_eq]
  omega

/-! ## 3. Names -/

/-- The names of the numbers from 1. -/
def names : List String :=
  ["HUP", "INT", "QUIT", "ILL", "TRAP", "ABRT", "BUS", "FPE", "KILL", "USR1", "SEGV", "USR2",
   "PIPE", "ALRM", "TERM", "STKFLT", "CHLD", "CONT", "STOP", "TSTP", "TTIN", "TTOU", "URG",
   "XCPU", "XFSZ", "VTALRM", "PROF", "WINCH", "POLL", "PWR", "SYS"]

/-- The number that a name or a numeral stands for. -/
def ofName? (s : String) : Option Nat :=
  if s = "EXIT" then some 0
  else match names.findIdx? (· = s) with
    | some i => some (i + 1)
    | none =>
      match s.toNat? with
      | some n => if n ≤ largest then some n else none
      | none => none

end JobShell.Signal
