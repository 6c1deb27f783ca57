/-!
# Built-in commands

The commands that the shell runs itself.

* `Builtin` lists them; `Builtin.ofName?` finds one by its name, and `Builtin.name` is its name.
-/

namespace JobShell

/-- A command of the shell itself. -/
inductive Builtin where
  | quit
  | jobs
  | background
  | foreground
  deriving DecidableEq, Repr

namespace Builtin

/-- The word that calls a built-in. -/
def name : Builtin → String
  | quit => "quit"
  | jobs => "jobs"
  | background => "bg"
  | foreground => "fg"

/-- The built-in of a name. -/
def ofName? (s : String) : Option Builtin :=
  [quit, jobs, background, foreground].find? fun b => b.name == s

/-- **A name finds exactly the built-in it belongs to.** -/
theorem ofName?_eq_some_iff {s : String} {b : Builtin} : ofName? s = some b ↔ b.name = s := by
  constructor
  · intro h
    simpa using List.find?_some h
  · rintro rfl
    cases b <;> decide

end Builtin

end JobShell
