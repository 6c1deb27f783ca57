/-!
# Commands

One command: a program with its arguments, where its input comes from, where its output goes, and
whether the shell waits for it.

* `Command` is the parsed form of a line.
* `quote` and `Command.render` write any command down so that reading the line gives it back,
  whatever characters its parts hold.
-/

namespace JobShell

/-! ## 1. The parsed form -/

structure Command where
  /-- The program and its arguments. -/
  args : List String := []
  /-- The file that standard input is read from. -/
  infile : Option String := none
  /-- The file that standard output is written to. -/
  outfile : Option String := none
  /-- The shell goes on without waiting. -/
  background : Bool := false
  deriving DecidableEq, Repr

namespace Command

/-- The name of the program to run. -/
def program? (c : Command) : Option String := c.args.head?

/-! ## 2. Writing a command down -/

/-- A single quote ends the quoted part, stands between double quotes, and starts the next part. -/
def quoteChar (c : Char) : List Char :=
  if c = '\'' then ['\'', '"', '\'', '"', '\''] else [c]

/-- A text between single quotes. -/
def quote (s : String) : List Char := '\'' :: s.toList.flatMap quoteChar ++ ['\'']

/-- The quoted words, one blank between them. -/
def renderWords : List String → List Char
  | [] => []
  | [w] => quote w
  | w :: ws => quote w ++ ' ' :: renderWords ws

/-- A redirection by the operator `op`, if there is one. -/
def renderTarget (op : Char) : Option String → List Char
  | none => []
  | some path => [' ', op, ' '] ++ quote path

/-- A line that says what the command says. -/
def render (c : Command) : String :=
  String.ofList (renderWords c.args ++ renderTarget '<' c.infile ++ renderTarget '>' c.outfile
    ++ if c.background then [' ', '&'] else [])

example : render ⟨["echo", "it's"], none, some "o", true⟩ = "'echo' 'it'\"'\"'s' > 'o' &" := by
  decide

end Command

end JobShell
