import JobShell.Shell.Invocation

/-!
The program: lines from standard input, run by the shell among programs and files of its own.
-/

open JobShell

/-- Reads everything that is left of a stream. -/
partial def readRest (input : IO.FS.Stream) (sofar : ByteArray) : IO ByteArray := do
  let chunk ← input.read 65536
  if chunk.isEmpty then return sofar else readRest input (sofar ++ chunk)

def main (args : List String) : IO UInt32 := do
  let stdin ← IO.getStdin
  let stdout ← IO.getStdout
  let stderr ← IO.getStderr
  let input ← readRest stdin ByteArray.empty
  let interactive ← stdin.isTty
  let files := FileTree.installed ["home", "work"]
  let report := Invocation.run
    { args, home := some "/home", wanted := ← IO.getEnv "RUST_LOG"
      terminal := ⟨interactive, ← IO.getEnv "TERM"⟩
      around := ({ files } : Surroundings).withInput interactive input.toList }
  stdout.write ⟨report.output.toArray⟩
  stdout.flush
  stderr.write ⟨report.errors.toArray⟩
  return report.code.toUInt32
