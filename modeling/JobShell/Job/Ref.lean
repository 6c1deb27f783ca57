import JobShell.Job.Table

/-!
# References to jobs

How a command names the job it means: by `%` and the number of the job, or by the number of its
process.

* `JobRef.ofArg` reads a reference; digits count up to the first character that is none.
* `JobRef.resolve?` finds the job and its process in a table.
-/

namespace JobShell

/-- A reference to a job. -/
inductive JobRef where
  | job (id : Nat)
  | process (pid : Int)
  deriving DecidableEq, Repr

/-- Why an argument refers to no job. `name` is the command that was called. -/
inductive RefError where
  | missingArgument (name : String)
  | badArgument (name : String)
  | noSuchJob (arg : String)
  deriving DecidableEq, Repr

/-- The explanation shown to the user. -/
def RefError.message : RefError → String
  | missingArgument name => name ++ " command requires PID or %jobid argument"
  | badArgument name => name ++ ": argument must be a PID or %jobid"
  | noSuchJob arg => arg ++ ": No such job"

namespace JobRef

/-- The largest number of a job that can be referred to, plus one. -/
def idBound : Nat := Nat.pow 2 64

/-- The largest number of a process that can be referred to, plus one. -/
def pidBound : Nat := Nat.pow 2 31

/-- A number below the bound, 0 in place of any other: no job and no process has the number 0. -/
def bounded (bound n : Nat) : Nat := if n < bound then n else 0

/-- Reads a reference from the argument of the command `name`. -/
def ofArg (name : String) : Option String → Except RefError JobRef
  | none => .error (.missingArgument name)
  | some arg =>
    match arg.toList with
    | '%' :: cs => .ok (.job (bounded idBound (Text.leadingNatural cs)))
    | c :: cs =>
      if c.isDigit then .ok (.process (bounded pidBound (Text.leadingNatural (c :: cs))))
      else .error (.badArgument name)
    | [] => .error (.badArgument name)

/-- The job that is meant, and its process. -/
def resolve? (t : JobTable) : JobRef → Option (Nat × Int)
  | job id => (t.pidOf? id).map fun pid => (id, pid)
  | process pid => (t.ofPid? pid).map fun id => (id, pid)

end JobRef

end JobShell
