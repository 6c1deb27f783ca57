import JobShell.Command
import JobShell.Message
import JobShell.Process.Image
import JobShell.Process.Surroundings
import JobShell.Signal.Disposition
import JobShell.Signal.Mask

/-!
# Launching a program

A child begins as a copy of the shell. What it does between its first moment and the start of its
program is cut into stages, so that a signal can arrive between any two of them.

* `Launch` is what the child has from the shell: the command, the signals that are blocked, and what
  the shell arranged for signals.
* `Setup` is how far it has come, `Stage` lists the stages in their order.
* `Setup.redirect?` and `Setup.image?` are the obstacles there can be; `Obstacle.text` is how one is
  reported.
-/

namespace JobShell

/-! ## 1. What a child starts with -/

/-- What a child has from the shell. -/
structure Launch where
  command : Command
  /-- The block that the shell is in. -/
  block : Block
  /-- What the shell arranged for signals. -/
  dispositions : Dispositions
  /-- The process that owns the foreground by the table of the shell. -/
  foreground : Option Int := none

/-- The signals that are blocked at first. -/
def Launch.mask (l : Launch) : Mask := l.block.before.withAll

/-- Where a child is on its way to its program: what it does next. -/
inductive Stage where
  /-- Opens the file to read from. -/
  | input
  /-- Opens the file to write to. -/
  | output
  /-- Takes back what the shell ignores. -/
  | release
  /-- Ends the block that it came to life in. -/
  | unblock
  /-- Becomes the leader of a process group. -/
  | join
  /-- Starts the program. -/
  | start
  deriving DecidableEq, Repr

/-- How far a child has come. -/
structure Setup where
  launch : Launch
  stage : Stage := .input
  streams : Streams := {}

/-! ## 2. Obstacles -/

/-- What keeps a child from running its program. -/
structure Obstacle where
  /-- What cannot be used. -/
  name : String
  reason : Reason
  deriving DecidableEq, Repr

/-- How an obstacle is reported. -/
def Obstacle.text (o : Obstacle) : String := o.name ++ ": " ++ o.reason.text

namespace Setup

/-- The next stage. -/
def advance (s : Setup) (stage : Stage) : Setup := { s with stage }

/-- Opens the file to read from, if there is one. -/
def openInput (s : Setup) (around : Surroundings) : Except Obstacle Streams :=
  match s.launch.command.infile with
  | none => .ok s.streams
  | some path =>
    match around.files.openInput path with
    | .ok p => .ok { s.streams with input := .file p }
    | .error r => .error ⟨path, r⟩

/-- Opens the file to write to, if there is one. -/
def openOutput (s : Setup) (around : Surroundings) : Except Obstacle (Streams × Surroundings) :=
  match s.launch.command.outfile with
  | none => .ok (s.streams, around)
  | some path =>
    match around.files.openOutput path with
    | .ok (files, p) => .ok ({ s.streams with output := .file p }, { around with files })
    | .error r => .error ⟨path, r⟩

/-- Finds the program. -/
def image (s : Setup) (around : Surroundings) : Except Obstacle Image :=
  match s.launch.command.args with
  | [] => .error ⟨"", .noEntry⟩
  | name :: args =>
    match around.files.image name args with
    | .ok image => .ok image
    | .error r => .error ⟨name, r⟩

/-- Reports an obstacle where the output of the program would go. -/
def report (s : Setup) (around : Surroundings) (o : Obstacle) : Surroundings :=
  (around.write s.streams.output (line o.text)).1

end Setup

end JobShell
