import JobShell.Message
import JobShell.Text.Decimal

/-!
# Jobs

A job is a child process that the shell keeps track of. Jobs are numbered from 1; a process is known
by its identifier, an integer.

* `JobState` says what a job is doing; `JobState.display` is the word the listing shows.
* `StoredLine` is the command line a job keeps: the longest prefix of at most `lineLimit` bytes.
* `Job.announcement` and the notices are the lines the shell prints about a job.
-/

namespace JobShell

/-! ## 1. States -/

/-- What a job is doing. `undefined` is the state of no job. -/
inductive JobState where
  | undefined
  | foreground
  | background
  | stopped
  deriving DecidableEq, Repr

/-- The word that the listing shows. -/
def JobState.display : JobState → String
  | undefined => "Undefined"
  | foreground => "Foreground"
  | background => "Running"
  | stopped => "Stopped"

/-- **The word tells the state.** -/
theorem JobState.display_injective {a b : JobState} (h : a.display = b.display) : a = b := by
  cases a <;> cases b <;> first | rfl | exact absurd h (by decide)

/-! ## 2. Stored command lines -/

/-- A command line of at most `lineLimit` bytes. -/
structure StoredLine where
  text : String
  width_le : Text.width text.toList ≤ lineLimit
  deriving DecidableEq

namespace StoredLine

/-- The part of a text that is stored: the longest prefix that fits. -/
def ofString (s : String) : StoredLine where
  text := String.ofList (Text.fitting lineLimit s.toList)
  width_le := by
    rw [String.toList_ofList]
    exact Text.width_fitting_le _ _

/-- The number of bytes stored. -/
def size (l : StoredLine) : Nat := Text.width l.text.toList

/-- **A line that fits is stored whole.** -/
theorem text_ofString_of_le {s : String} (h : Text.width s.toList ≤ lineLimit) :
    (ofString s).text = s := by
  simp [ofString, Text.fitting_of_width_le h]

/-- Storing a stored line changes nothing. -/
theorem ofString_text (l : StoredLine) : ofString l.text = l := by
  have := text_ofString_of_le l.width_le
  cases l
  simpa [ofString] using this

end StoredLine

/-! ## 3. Jobs -/

structure Job where
  id : Nat
  pid : Int
  state : JobState
  cmdline : StoredLine
  deriving DecidableEq

namespace Job

/-- The number and the process of a job, as they stand in front of every line about it. -/
def tag (id : Nat) (pid : Int) : String :=
  "[" ++ Text.natural id ++ "] (" ++ Text.integer pid ++ ")"

/-- The line shown when a job starts or goes on in the background. -/
def announcement (id : Nat) (pid : Int) (cmdline : String) : String :=
  tag id pid ++ " " ++ cmdline

/-- The line shown when a job was stopped by a signal. -/
def stoppedNotice (id : Nat) (pid : Int) (signal : Nat) : String :=
  "Job " ++ tag id pid ++ " stopped by signal " ++ Text.natural signal

/-- The line shown when a job was ended by a signal. -/
def terminatedNotice (id : Nat) (pid : Int) (signal : Nat) : String :=
  "Job " ++ tag id pid ++ " terminated by signal " ++ Text.natural signal

/-- The parts of a line of the listing, in the order in which they are written. -/
def listingParts (j : Job) : List String :=
  ["[", Text.natural j.id, "] (", Text.integer j.pid, ") ", j.state.display, " ",
    j.cmdline.text, "\n"]

end Job

end JobShell
