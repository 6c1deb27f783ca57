import JobShell.Builtin
import JobShell.Command.Parser
import JobShell.Job.Ref
import JobShell.Shell.Handler

/-!
# Evaluation

What the shell does for a line.

* `Shell.evaluate` reads a line and does what it says; `Shell.execute` does what a command says.
* `Shell.launch` starts a program, and waits for it unless it is to run in the background. It is the
  one thing here that can fail; all other faults are reported to the user.
* `Shell.listJobs`, `Shell.resume` and `Shell.quit` are the built-in commands.
-/

namespace JobShell

open Diagnostics

namespace Shell

variable {σ : Type} [Host σ]

/-! ## 1. Diagnostics -/

/-- The part of the program that starts programs, as diagnostic lines name it. -/
def launchTarget : String := "jobsh::executor"

/-- The part of the program that runs built-in commands. -/
def builtinTarget : String := "jobsh::builtins"

/-- A job, as a diagnostic line names it. -/
def jobFields (id : Nat) (pid : Int) : List (String × String) :=
  [("job", Text.natural id), ("pid", Text.integer pid)]

/-- The same with a state. -/
def stateFields (id : Nat) (pid : Int) (state : JobState) : List (String × String) :=
  jobFields id pid ++ [("state", state.display)]

/-! ## 2. Programs -/

/-- What is said about a command whose arguments cannot be passed on. -/
def badArguments (name : String) : String := name ++ ": argument contains a NUL byte"

/-- A character that no argument of a program can hold. -/
def hasNul (arg : String) : Bool := arg.toList.contains '\x00'

/-- The start of a message that is about the shell itself. -/
def ownMessage (text : String) : String := "jobsh: " ++ text

/-- The state in which the job of a command starts. -/
def startState (c : Command) : JobState := if c.background then .background else .foreground

/-- Starts a program as a job, inside a block. If it runs in the background it is given back, else
it is waited for. There is no job if no child can be started. -/
def startJob (c : Command) (cmdline : String) (b : Block) :
    Act σ (Except Reason (Option (Nat × Int))) := do
  if (← jobs).isFull then
    say (ownMessage AddError.full.message)
    return .ok none
  match ← fork b c with
  | .error r => return .error r
  | .ok pid =>
    match ← enter pid (startState c) cmdline with
    | .error e => do
      send pid Signal.kill
      say (ownMessage e.message)
      return .ok none
    | .ok id => do
      note .debug launchTarget ("launched " ++ cmdline) (stateFields id pid (startState c))
      if c.background then
        return .ok (some (id, pid))
      else
        await b pid
        return .ok none

/-- Starts a program as a job. This fails if no child can be started. -/
def launch (c : Command) (cmdline : String) : Act σ Unit := do
  if c.args.any hasNul then
    say (badArguments (c.args.headD ""))
  else
    match ← locked interruptible (startJob c cmdline) with
    | .error r => throw (.failed r)
    | .ok (some (id, pid)) => say (Job.announcement id pid cmdline)
    | .ok none => pure ()

/-! ## 3. Built-in commands -/

/-- What is said when a listing could not be written. -/
def listingFault : String := "Fails to write into job list."

/-- Writes parts one after the other, and tells whether all were taken. -/
def writeAll : List String → Act σ Bool
  | [] => return true
  | part :: rest => do
    if ← write (Text.bytes part) then writeAll rest else return false

/-- Writes texts into an open file, up to the first that is not taken whole. -/
def appendAll (t : FileTree) (p : Place) : List String → FileTree × Bool
  | [] => (t, true)
  | part :: rest =>
    match t.append p (Text.bytes part) with
    | (t', true) => appendAll t' p rest
    | (t', false) => (t', false)

/-- Lists the jobs, on the stream of the shell or into a file. -/
def listJobs (c : Command) : Act σ Unit :=
  locked interruptible fun _ => do
    match c.outfile with
    | none => do
      let t ← jobs
      record (.listed t)
      let all ← writeAll t.listingParts
      unless all do say listingFault
    | some path => do
      let s ← get
      match (Host.files s.host).openOutput path with
      | .error r => say (Obstacle.text ⟨path, r⟩)
      | .ok (files, place) => do
        let t ← jobs
        record (.listed t)
        let (files, all) := appendAll files place t.listingParts
        modify fun s => { s with host := Host.withFiles s.host files }
        unless all do say listingFault

/-- What is noted when a group could not be told to go on. -/
def resumeFault (name : String) (r : Reason) : String :=
  name ++ ": failed to continue: " ++ r.coded

/-- Tells the process of a job to go on, and enters the state. -/
def continueJob (name : String) (state : JobState) (id : Nat) (pid : Int) : Act σ Unit := do
  if state = .background then
    let cmdline := (((← jobs).get? id).map (·.cmdline.text)).getD ""
    say (Job.announcement id pid cmdline)
  match ← sendGroup pid Signal.resume with
  | some r => note .warn builtinTarget (resumeFault name r) (jobFields id pid)
  | none => pure ()
  let _ ← restate id state
  note .debug builtinTarget "resumed" (stateFields id pid state)

/-- Lets a job go on in the background or in the foreground, inside a block. In the foreground it is
waited for. -/
def resumeJob (name : String) (state : JobState) (c : Command) (b : Block) : Act σ Unit := do
  match JobRef.ofArg name c.args[1]? with
  | .error e => say e.message
  | .ok ref =>
    match ref.resolve? (← jobs) with
    | none => say (RefError.noSuchJob (c.args[1]?.getD "")).message
    | some (id, pid) => do
      continueJob name state id pid
      if state = .foreground then await b pid

/-- Lets a job go on in the background or in the foreground. -/
def resume (name : String) (state : JobState) (c : Command) : Act σ Unit :=
  locked interruptible (resumeJob name state c)

def quit : Act σ Unit := throw (.exited 0)

/-- Runs a built-in command. -/
def runBuiltin (c : Command) : Builtin → Act σ Unit
  | .quit => quit
  | .jobs => listJobs c
  | .background => resume "bg" .background c
  | .foreground => resume "fg" .foreground c

/-! ## 4. Lines -/

/-- Does what a command says. `cmdline` is the line that a job is known by. -/
def execute (c : Command) (cmdline : String) : Act σ Unit :=
  match c.program? with
  | none => pure ()
  | some name =>
    match Builtin.ofName? name with
    | some b => runBuiltin c b
    | none => launch c cmdline

/-- Does what a line says. -/
def evaluate (text : String) : Act σ Unit :=
  match Command.ofLine text with
  | .ok (some c) => execute c text
  | .ok none => pure ()
  | .error e => say e.message

end Shell

end JobShell
