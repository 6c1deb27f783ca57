import JobShell.Shell.Interaction
import JobShell.Shell.PlainEditor

/-!
# Invocations

Calling the shell as a program, among the processes of a kernel.

* `Invocation` is a call: its arguments and what it finds in its environment.
* `Invocation.runWith` gives the `Report` of a call with some line editor: what it printed, how it
  ended, and the files after it. `Invocation.run` is the call with the plain editor, where no
  characters combine.
-/

namespace JobShell

open Diagnostics

/-- A call of the shell. -/
structure Invocation where
  args : List String := []
  /-- The home directory. -/
  home : Option String := none
  terminal : Terminal := {}
  /-- The diagnostics that are wanted, if somebody says so. -/
  wanted : Option String := none
  /-- What stands for the time in front of a diagnostic line. -/
  stamp : String := ""
  around : Surroundings

/-- What a call leaves behind. -/
structure Report where
  output : List UInt8
  errors : List UInt8 := []
  ending : Ending
  files : FileTree

/-- The code by which an ending is known outside. That of a shell which never comes back is the one
that is given where somebody stops waiting for it. -/
def Ending.code : Ending → Nat
  | exited code => code
  | killed signal => 128 + signal
  | failed _ => 1
  | waits => 124

def Report.code (r : Report) : Nat := r.ending.code

namespace Invocation

/-- How a shell ends of which this has come. -/
def endingOf : Except Ending α → Ending
  | .ok _ => .exited 0
  | .error e => e

/-- The diagnostics filter: the one from outside if there is one that can be read, else the one that
the flags ask for. -/
def filter (i : Invocation) (o : Options) : Filter :=
  match i.wanted.bind Filter.parse? with
  | some f => f
  | none => (Filter.parse? o.logDirective).getD .off

def showUsage (i : Invocation) : Report :=
  let (around, ok) := i.around.write .shared (Text.bytes usage)
  { output := around.output, files := around.files
    ending := .exited (if ok then 0 else Shell.speechlessCode) }

/-- Refuses the arguments. -/
def refuse (i : Invocation) (e : OptionError) : Report :=
  { output := i.around.output, files := i.around.files, ending := .exited 1
    errors := Text.bytes (Shell.ownMessage e.message ++ "\n" ++ usage) }

/-- The session in which the first prompt is shown. -/
def session (i : Invocation) (o : Options) : Session :=
  { Session.start i.around with filter := i.filter o, stamp := i.stamp }

variable {ρ : Type}

/-- Reads and evaluates lines. Each of them takes at least one byte of the input, which bounds how
many there can be. -/
def converse (i : Invocation) (o : Options) (ed : Editor Kernel ρ) (r : ρ) : Report :=
  let a : Act Kernel Unit :=
    Shell.interact ed i.terminal.interactive o (i.around.input.length + 1) r
  let (result, s) := a.on (i.session o)
  { output := s.host.around.output, files := s.host.around.files, ending := endingOf result }

/-- The whole call, with a line editor that keeps `r` at first. -/
def runWith (i : Invocation) (ed : Editor Kernel ρ) (r : ρ) : Report :=
  match Options.ofArgs i.home i.args with
  | .error e => i.refuse e
  | .ok o => if o.help then i.showUsage else i.converse o ed r

/-- The whole call. -/
def run (i : Invocation) : Report := i.runWith (.plain i.terminal .single) {}

end Invocation

end JobShell
