import JobShell.Text.Decimal

/-!
# Scripts

What the system's command interpreter runs: simple commands, put together by order, by success and
by repetition.

* `Part` and `Word` are the words of a script before their parameters are replaced.
* `Redirect` says where the input or output of a command goes.
* `Script` is a script.
* `expand` replaces the parameters of words and gives the arguments they stand for.

NOT here: functions, pipes, substitution of commands, patterns for file names, arithmetic.
-/

namespace JobShell

/-! ## 1. Syntax -/

/-- A part of a word. Quoted parts are not split at blanks. -/
inductive Part where
  | text (quoted : Bool) (cs : List Char)
  | parameter (quoted : Bool) (name : List Char)
  deriving DecidableEq, Repr

abbrev Word := List Part

/-- What a redirection does. -/
inductive RedirectKind where
  | read
  | write
  | extend
  | duplicate
  deriving DecidableEq, Repr

/-- A redirection of a stream, 0 for input, 1 for output, 2 for errors. -/
structure Redirect where
  stream : Nat
  kind : RedirectKind
  target : Word
  deriving DecidableEq, Repr

inductive Script where
  | nothing
  /-- A command, with the number of its line. -/
  | simple (line : Nat) (words : List Word) (redirects : List Redirect)
  | sequence (first second : Script)
  | onSuccess (first second : Script)
  | onFailure (first second : Script)
  /-- Repeats the body as long as the test succeeds, or as long as it fails. -/
  | loop (whileSuccess : Bool) (test body : Script)
  | choose (test yes no : Script)
  deriving Repr

namespace Script

/-! ## 2. Parameters -/

/-- What the parameters of a script stand for. -/
structure Parameters where
  /-- The name that the script was called by. -/
  name : String
  /-- Its arguments. -/
  args : List String := []
  bindings : List (String × String) := []
  /-- The status of the last command. -/
  status : Nat := 0
  /-- The process that runs the script, and its parent. -/
  pid : Int
  parent : Int
  deriving DecidableEq, Repr

/-- The value of a parameter; one without a value stands for nothing. -/
def Parameters.value (p : Parameters) (name : List Char) : String :=
  match name with
  | ['#'] => Text.natural p.args.length
  | ['?'] => Text.natural p.status
  | ['$'] => Text.integer p.pid
  | ['@'] => " ".intercalate p.args
  | ['*'] => " ".intercalate p.args
  | ['0'] => p.name
  | _ =>
    if name.all Char.isDigit then (p.args[Text.leadingNatural name - 1]?).getD ""
    else if name = "PPID".toList then Text.integer p.parent
    else ((p.bindings.find? (·.1 == String.ofList name)).map (·.2)).getD ""

/-- Gives a variable a value. -/
def Parameters.assign (p : Parameters) (name value : String) : Parameters :=
  { p with bindings := (name, value) :: p.bindings.filter (·.1 != name) }

/-! ## 3. Fields -/

/-- The fields that are complete, and the one that is being put together. -/
structure Fields where
  done : List String := []
  current : Option (List Char) := none

/-- Adds characters to the current field. -/
def Fields.add (f : Fields) (cs : List Char) : Fields :=
  { f with current := some (f.current.getD [] ++ cs) }

/-- Completes the current field, if there is one. -/
def Fields.close (f : Fields) : Fields :=
  match f.current with
  | none => f
  | some cs => ⟨f.done ++ [String.ofList cs], none⟩

/-- Adds characters that are split at blanks. -/
def Fields.addSplit (f : Fields) : List Char → Fields
  | [] => f
  | c :: cs => if c.isWhitespace then f.close.addSplit cs else (f.add [c]).addSplit cs

/-- Adds texts that stay apart from each other. No texts at all leave no empty field behind. -/
def Fields.addAll (f : Fields) : List String → Fields
  | [] => if f.current = some [] then { f with current := none } else f
  | [s] => f.add s.toList
  | s :: rest => ((f.add s.toList).close).addAll rest

/-- Adds a part of a word. -/
def Fields.addPart (p : Parameters) (f : Fields) : Part → Fields
  | .text _ cs => f.add cs
  | .parameter true ['@'] => f.addAll p.args
  | .parameter true name => f.add (p.value name).toList
  | .parameter false name => f.addSplit (p.value name).toList

def fields (p : Parameters) (w : Word) : List String :=
  (w.foldl (Fields.addPart p) {}).close.done

/-- The arguments that words stand for. -/
def expand (p : Parameters) (ws : List Word) : List String := ws.flatMap (fields p)

/-- The text that a word stands for where it is not split. -/
def expandText (p : Parameters) (w : Word) : String :=
  String.join (w.map fun part => match part with
    | .text _ cs => String.ofList cs
    | .parameter _ name => p.value name)

end Script

end JobShell
