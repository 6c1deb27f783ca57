import JobShell.Text.Pieces
import JobShell.Text.Utf8

/-!
# History

The lines entered so far, oldest first.

* `History.add` enters a line: an empty line and one equal to the line before it are left out, and
  at most `History.limit` lines are kept.
* `History.encode` is the file format: a line naming the format, then a line for each entry with
  backslashes and line feeds escaped.
* `History.load` reads a file; a file without the naming line holds entries as they stand.
-/

namespace JobShell

structure History where
  entries : List String := []
  /-- Lines were entered since the history was loaded. -/
  grown : Bool := false
  deriving DecidableEq, Repr

namespace History

/-! ## 1. Entering lines -/

/-- The number of lines that are kept. -/
def limit : Nat := 100

def add (h : History) (line : String) : History :=
  if line.isEmpty ∨ h.entries.getLast? = some line then h
  else
    let all := h.entries ++ [line]
    ⟨all.drop (all.length - limit), true⟩

/-- Never more than `limit` lines are kept. -/
theorem length_add_le {h : History} (line : String) (hl : h.entries.length ≤ limit) :
    (h.add line).entries.length ≤ limit := by
  unfold add
  split
  · exact hl
  · simp only [List.length_drop, List.length_append, List.length_singleton]
    omega

/-! ## 2. The file format -/

/-- The first line of a file in the current format. -/
def formatName : List Char := ['#', 'V', '2']

/-- One character of an entry, as it is written. -/
def escapeChar (c : Char) : List Char :=
  if c = '\n' then ['\\', 'n'] else if c = '\\' then ['\\', '\\'] else [c]

/-- An entry, as it is written. -/
def escape (cs : List Char) : List Char := cs.flatMap escapeChar

/-- The entry that was written as a line; `none` if no entry is written like this. -/
def unescape? : List Char → Option (List Char)
  | [] => some []
  | '\\' :: 'n' :: cs => (unescape? cs).map ('\n' :: ·)
  | '\\' :: '\\' :: cs => (unescape? cs).map ('\\' :: ·)
  | c :: cs => if c = '\\' then none else (unescape? cs).map (c :: ·)

/-- **An entry can be read as it was written.** -/
theorem unescape?_escape (cs : List Char) : unescape? (escape cs) = some cs := by
  induction cs with
  | nil => rfl
  | cons c cs ih =>
    have step : escape (c :: cs) = escapeChar c ++ escape cs := rfl
    rw [step]
    by_cases hn : c = '\n'
    · subst hn; simp [escapeChar, unescape?, ih]
    · by_cases hb : c = '\\'
      · subst hb; simp [escapeChar, unescape?, ih]
      · simp [escapeChar, unescape?, ih, hn, hb]

/-- The file that holds a history. -/
def encode (h : History) : List UInt8 :=
  Text.encode (formatName ++ ['\n'] ++
    h.entries.flatMap fun e => escape e.toList ++ ['\n'])

/-! ## 3. Loading -/

/-- What was found in a file. -/
structure Loaded where
  history : History
  /-- The lines that hold no entry of the current format; they are entries as they stand. -/
  odd : List String
  /-- Every line of the file is text. -/
  readable : Bool
  deriving DecidableEq, Repr

/-- A line without the carriage return at its end. -/
def dropReturn (bs : List UInt8) : List UInt8 :=
  if bs.getLast? = some 13 then bs.dropLast else bs

/-- The lines of a file. A carriage return belongs to the line feed after it. -/
def fileLines (content : List UInt8) : List (List UInt8) :=
  let all := Text.pieces (10 : UInt8) content
  let rest := all.getLastD []
  all.dropLast.map dropReturn ++ if rest.isEmpty then [] else [rest]

/-- Enters the lines after the first one. A line that is no text ends the reading. -/
def loadLines (escaped : Bool) (l : Loaded) : List (List UInt8) → Loaded
  | [] => l
  | bs :: rest =>
    match Text.decode? bs with
    | none => { l with readable := false }
    | some "" => loadLines escaped l rest
    | some s =>
      match escaped, unescape? s.toList with
      | true, some cs =>
        loadLines escaped { l with history := l.history.add (String.ofList cs) } rest
      | true, none =>
        loadLines escaped { l with history := l.history.add s, odd := l.odd ++ [s] } rest
      | false, _ => loadLines escaped { l with history := l.history.add s } rest

/-- Reads a file. What was entered counts as new only if the reading had to stop. -/
def load (content : List UInt8) : Loaded :=
  let start : Loaded := ⟨{}, [], true⟩
  let l := match fileLines content with
    | [] => start
    | first :: rest =>
      match Text.decode? first with
      | none => { start with readable := false }
      | some s =>
        if s.toList = formatName then loadLines true start rest
        else loadLines false { start with history := start.history.add s } rest
  if l.readable then { l with history := { l.history with grown := false } } else l

end History

end JobShell
