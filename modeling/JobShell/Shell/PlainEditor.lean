import JobShell.History
import JobShell.Shell.Editor
import JobShell.Shell.Session

/-!
# The plain editor

A line editor that edits nothing but what backspaces take away, and keeps a history.

* `Terminal` is what it knows about where it is used, and `showPrompt` what it shows there.
* `Clustering` is how a text is cut into what a backspace takes away at once.
* `Shell.readLine` reads a line; `lineText?` is the text of one.
* `Reader` is what it keeps: what it has read beyond a line, and the history.
* `Editor.plain` puts this together, for a shell on a kernel. While it waits for a line processes go
  on, and signals are taken.

NOT here: keys other than backspace, and the rules by which characters combine; `Clustering.single`
combines none. No line is ever interrupted.
-/

namespace JobShell

open Diagnostics

/-! ## 1. Terminals and lines -/

/-- What the shell knows about where it is used. -/
structure Terminal where
  /-- The input is a terminal. -/
  interactive : Bool := false
  /-- The kind of the terminal. -/
  kind : Option String := none
  deriving DecidableEq, Repr

/-- The kinds of terminals that can do nothing but print. -/
def plainKinds : List String := ["dumb", "cons25", "emacs"]

/-- The terminal can do nothing but print. -/
def Terminal.isPlain (t : Terminal) : Bool :=
  match t.kind with
  | some kind => plainKinds.contains (String.ofList (kind.toList.map Char.toLower))
  | none => false

/-- The line without the line feed at its end, and without a carriage return before that. -/
def withoutEnd (bs : List UInt8) : List UInt8 :=
  if bs.getLast? = some newline then
    let rest := bs.dropLast
    if rest.getLast? = some 13 then rest.dropLast else rest
  else bs

/-- How a text is cut into clusters, each of them one character to its user. -/
abbrev Clustering := List Char → List (List Char)

/-- No character combines with another. -/
def Clustering.single : Clustering := List.map ([·])

/-- Each backspace takes away the cluster before it. `kept` holds the clusters so far, the last one
first. -/
def erasing (kept : List (List Char)) : List (List Char) → List Char
  | [] => kept.reverse.flatten
  | g :: gs => if g = ['\x08'] then erasing kept.tail gs else erasing (g :: kept) gs

/-- The text of a line that was read; bytes that are no text have none. -/
def lineText? (clusters : Clustering) (bs : List UInt8) : Option String :=
  (Text.decode? bs).bind fun _ =>
    (Text.decode? (withoutEnd bs)).map fun s => String.ofList (erasing [] (clusters s.toList))

namespace Shell

variable {σ : Type} [Host σ]

/-- The part of the program that reads lines and keeps their history, as diagnostic lines name
it. -/
def lineTarget : String := "rustyline"

/-! ## 2. Prompts -/

/-- Shows a prompt where one is shown, or tells why it cannot be. -/
def showPrompt (t : Terminal) (text : String) : Act σ (Except (List String) Unit) := do
  let shown : Act σ (Except (List String) Unit) := do
    if ← write (Text.bytes text) then return .ok ()
    return .error [Reason.noSpace.numbered, Reason.noSpace.numbered]
  if t.isPlain then
    note .debug lineTarget "unsupported terminal" []
    shown
  else if t.interactive then
    shown
  else
    note .debug lineTarget "stdin is not a tty" []
    return .ok ()

/-! ## 3. Reading -/

/-- Reads once from the input. -/
def readChunk : Act σ (List UInt8) := do
  let s ← get
  let (host, chunk) := Host.read s.host
  set { s with host }
  return chunk

/-- Reads a line, with the line feed at its end, and gives back what was read beyond it. `buffer` is
what was read before. There is no line at the end of the input. -/
def readLine : (bound : Nat) → (buffer : List UInt8) → Act σ (Option (List UInt8) × List UInt8)
  | 0, _ => throw .waits
  | n + 1, buffer => do
    if buffer.contains newline then
      let text := buffer.takeWhile (· ≠ newline)
      return (some (text ++ [newline]), buffer.drop (text.length + 1))
    else
      let chunk ← readChunk
      if chunk.isEmpty then return (if buffer.isEmpty then none else some buffer, [])
      else readLine n (buffer ++ chunk)

/-- Why a line that is no text cannot be read. -/
def notText : String := "stream did not contain valid UTF-8"

/-- What is handed out for a line that was read. -/
def readingOf (clusters : Clustering) : Option (List UInt8) → Reading
  | none => .ended
  | some bs =>
    match lineText? clusters bs with
    | some text => .line text
    | none => .failed [notText, notText]

/-! ## 4. History -/

/-- The permissions of a history file: for its owner only. -/
def historyMode : Nat := 0o600

/-- Notes lines of a history file that look like no entry. -/
def noteOdd : List String → Act σ Unit
  | [] => pure ()
  | s :: rest => do
    note .warn lineTarget ("bad escaped line: " ++ s) []
    noteOdd rest

/-- Reads a history from a file, and tells whether there was one that could be read. -/
def readHistory (path : String) : Act σ (Bool × History) := do
  let files := Host.files (← get).host
  match (files.openInput path).bind files.readAll with
  | .error _ => return (false, {})
  | .ok content => do
    let l := History.load content
    noteOdd l.odd
    return (l.readable, l.history)

/-- The files after a history was written into a file that was opened for it, and whether all of it
was taken. The file is for its owner only. -/
def historyWritten (files : FileTree) (p : Place) (h : History) : FileTree × Bool :=
  let files := match files.node? p with
    | some (.regular _ content) => files.setNode p (.regular historyMode content)
    | _ => files
  files.append p h.encode

/-- Writes a history into a file if it has grown, and tells what went wrong if something did. -/
def writeHistory (path : String) (h : History) : Act σ (Option String) := do
  if h.grown then
    let s ← get
    match (Host.files s.host).openOutput path with
    | .error r => return some r.numbered
    | .ok (files, place) => do
      let (files, all) := historyWritten files place h
      set { s with host := Host.withFiles s.host files }
      return if all then none else some Reason.noSpace.numbered
  else return none

end Shell

/-! ## 5. The editor -/

/-- What the plain editor keeps. -/
structure Reader where
  /-- What was read beyond the last line. -/
  buffer : List UInt8 := []
  history : History := {}

open Shell in
/-- The plain editor, for a shell at a terminal, or away from one. -/
def Editor.plain (t : Terminal) (clusters : Clustering) : Editor Kernel Reader where
  prompt text := do
    settle
    showPrompt t text
  next r := do
    -- every piece of the input has at least one byte, which bounds how many there can be
    let left := (← get).host.around.input.length
    let (line?, buffer) ← readLine (left + 1) r.buffer
    return (readingOf clusters line?, { r with buffer })
  remember text r := { r with history := r.history.add text }
  load path r := do
    let (found, history) ← readHistory path
    return (found, { r with history })
  save path r := writeHistory path r.history

end JobShell
