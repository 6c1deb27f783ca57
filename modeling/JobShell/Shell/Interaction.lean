import JobShell.Options
import JobShell.Shell.Editor
import JobShell.Shell.Evaluation
import JobShell.Text.Blank

/-!
# Interaction

The shell as its user meets it: a prompt, a line, what the line does, and the next prompt.

* `Shell.obey` evaluates a line, which ends the shell if it fails.
* `Shell.readLoop` asks an editor for lines and evaluates them, up to the end of the input.
* `Shell.interact` is all of it, with the history loaded before and saved after.
-/

namespace JobShell

open Diagnostics

/-- What stands before a line that is to be typed. -/
def promptText : String := "jobsh> "

/-- The prompt that the options ask for. -/
def Options.prompt (o : Options) : String := if o.emitPrompt then promptText else ""

namespace Shell

variable {σ : Type} [Host σ]

/-- The program as a whole, as diagnostic lines name it. -/
def programTarget : String := "jobsh"

/-! ## 1. Ends -/

/-- The code of a shell that could not say what it had to say. -/
def speechlessCode : Nat := 101

/-- Writes a text that has to arrive. -/
def writeOrFail (text : String) : Act σ Unit := do
  unless ← write (Text.bytes text) do throw (.exited speechlessCode)

/-- Ends the shell because of a fault. `causes` are the reasons behind it, the nearest first. -/
def fail (fault : String) (causes : List String) : Act σ α := do
  note .error programTarget (": ".intercalate (("fatal: " ++ fault) :: causes)) []
  let listed := causes.mapIdx fun i c => "    " ++ Text.natural i ++ ": " ++ c ++ "\n"
  writeOrFail (ownMessage fault ++ "\n\nCaused by:\n" ++ String.join listed)
  throw (.exited 1)

/-- What is said when a line cannot be read. -/
def readFault : String := "failed to read command line"

/-- What is said when the evaluation of a line has failed. -/
def controlFault : String := "job control failure"

/-! ## 2. Lines -/

/-- Evaluates a line. The shell ends if that fails. -/
def obey (text : String) : Act σ Unit := do
  match ← (evaluate text).attempt with
  | .ok () => pure ()
  | .error r => fail controlFault ["Nix error: " ++ r.coded, r.coded]

variable {ρ : Type} (ed : Editor σ ρ)

/-- Evaluates a line that was entered, unless it is blank. Where lines are remembered this one is
remembered first, whatever comes of it. -/
def takeLine (interactive : Bool) (r : ρ) (text : String) : Act σ ρ := do
  let trimmed := Text.trim text
  if trimmed.isEmpty then return r
  let r := if interactive then ed.remember trimmed r else r
  obey trimmed
  return r

/-- Asks for lines and evaluates them, up to the end of the input. -/
def readLoop (interactive : Bool) (o : Options) : (bound : Nat) → ρ → Act σ ρ
  | 0, _ => throw .waits
  | n + 1, r => do
    match ← ed.prompt o.prompt with
    | .error causes => fail readFault causes
    | .ok () =>
      match ← ed.next r with
      | (.line text, r) => readLoop interactive o n (← takeLine ed interactive r text)
      | (.interrupted, r) => do
        writeOrFail "^C\n"
        readLoop interactive o n r
      | (.ended, r) => do
        writeOrFail "\n"
        return r
      | (.failed causes, _) => fail readFault causes

/-! ## 3. History -/

def loadHistory (path : String) (r : ρ) : Act σ ρ := do
  let (found, r) ← ed.load path r
  unless found do note .debug programTarget "no previous history" [("path", path)]
  return r

def saveHistory (path : String) (r : ρ) : Act σ Unit := do
  match ← ed.save path r with
  | some fault => note .warn programTarget ("failed to save history: " ++ fault) [("path", path)]
  | none => pure ()

/-- The shell from its start to its end. -/
def interact (interactive : Bool) (o : Options) (bound : Nat) (r : ρ) : Act σ Unit := do
  match (if interactive then o.historyPath else none) with
  | none => do
    let _ ← readLoop ed interactive o bound r
  | some path => do
    let r ← loadHistory ed path r
    let r ← readLoop ed interactive o bound r
    saveHistory ed path r

end Shell

end JobShell
