import JobShell.Files

/-!
# Surroundings

What all processes share: the files, the stream that everything is written to unless it goes to a
file, the input, the time, and how many of them there may be.

* `Surroundings` holds them.
* `Source` and `Target` say where a process reads and writes; `Streams` are the three that it has.
* `Surroundings.write` writes, and `Surroundings.content` is what there is to read.
-/

namespace JobShell

/-! ## 1. Streams -/

/-- Where a process reads. -/
inductive Source where
  /-- Nothing is left to read. -/
  | nothing
  /-- The input of the shell. -/
  | shared
  | file (p : Place)
  deriving DecidableEq, Repr

/-- Where a process writes. -/
inductive Target where
  /-- The stream that the shell writes to. -/
  | shared
  | file (p : Place)
  deriving DecidableEq, Repr

/-- The streams of a process. -/
structure Streams where
  input : Source := .shared
  output : Target := .shared
  errors : Target := .shared
  deriving DecidableEq, Repr

/-! ## 2. What is shared -/

/-- What all processes share. -/
structure Surroundings where
  files : FileTree
  /-- What was written to the shared stream. -/
  output : List UInt8 := []
  /-- The shared stream takes nothing. -/
  outputFails : Bool := false
  /-- What is left of the shared input. -/
  input : List UInt8 := []
  /-- The shared input comes from a terminal, which hands out one line at a time. -/
  inputByLine : Bool := false
  /-- The time, in milliseconds. -/
  clock : Nat := 0
  /-- How many processes the shell may have at a time, if that is limited. -/
  processLimit : Option Nat := none

namespace Surroundings

/-- Writes, and tells whether all bytes were taken. -/
def write (s : Surroundings) (t : Target) (bs : List UInt8) : Surroundings × Bool :=
  match t with
  | .shared =>
    if s.outputFails then (s, bs.isEmpty) else ({ s with output := s.output ++ bs }, true)
  | .file p =>
    let (files, ok) := s.files.append p bs
    ({ s with files }, ok)

/-- What there is to read. -/
def content (s : Surroundings) : Source → Except Reason (List UInt8)
  | .nothing => .ok []
  | .shared => .ok s.input
  | .file p => s.files.readAll p

/-- Everything was read. -/
def drained (s : Surroundings) : Source → Surroundings × Source
  | .shared => ({ s with input := [] }, .shared)
  | _ => (s, .nothing)

/-- Input from a file, or typed at a terminal, where the return key ends a line. -/
def withInput (s : Surroundings) (typed : Bool) (bs : List UInt8) : Surroundings :=
  { s with
    input := if typed then bs.map fun b => if b = 13 then 10 else b else bs
    inputByLine := typed }

/-- The bytes that one attempt to read gives. -/
def chunkSize : Nat := 8192

/-- Reads once from the shared input: a line of a terminal, or as much as one attempt gives. -/
def readChunk (s : Surroundings) : Surroundings × List UInt8 :=
  let all := s.input.take chunkSize
  let chunk :=
    if s.inputByLine then
      let text := all.takeWhile (· ≠ 10)
      all.take (text.length + 1)
    else all
  ({ s with input := s.input.drop chunk.length }, chunk)

end Surroundings

end JobShell
