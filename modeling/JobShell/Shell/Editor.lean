import JobShell.Shell

/-!
# Line editors

What the shell asks of whatever reads its lines and keeps their history.

* `Reading` is what comes of asking for a line.
* `Editor` lists the operations. `ρ` is what the editor keeps for itself. Nothing is asked about how
  they behave: the shell can be used with any editor on any host.
-/

namespace JobShell

/-- What comes of asking for a line. -/
inductive Reading where
  | line (text : String)
  /-- The user has interrupted the typing of a line. -/
  | interrupted
  /-- There are no more lines. -/
  | ended
  /-- No line can be read. `causes` are the reasons behind it, the nearest first. -/
  | failed (causes : List String)

/-- A line editor for a shell on a host. -/
structure Editor (σ ρ : Type) where
  /-- Shows a prompt and waits until something is there to be handed out, or tells why it cannot. -/
  prompt : (text : String) → Act σ (Except (List String) Unit)
  /-- Hands out what was entered. -/
  next : ρ → Act σ (Reading × ρ)
  /-- Remembers a line. -/
  remember : (text : String) → ρ → ρ
  /-- Loads the lines of a file, and tells whether that worked. -/
  load : (path : String) → ρ → Act σ (Bool × ρ)
  /-- Saves what is remembered to a file, and tells what went wrong if something did. -/
  save : (path : String) → ρ → Act σ (Option String)

end JobShell
