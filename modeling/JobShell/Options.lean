/-!
# Options

The flags that the shell is started with.

* `Options` holds them, with where the history is kept.
* `Options.ofArgs` reads an argument list: letters after a dash, alone or grouped.
* `Options.logDirective` is the diagnostics filter when none is given from outside.
* `usage` is the text of `-h`.
-/

namespace JobShell

/-! ## 1. Paths -/

/-- The path of `name` inside the directory `dir`. -/
def joinPath (dir name : String) : String :=
  if dir.isEmpty then name
  else if dir.toList.getLast? = some '/' then dir ++ name
  else dir ++ "/" ++ name

/-- The name of the history file in the home directory. -/
def historyName : String := ".jobsh_history"

/-! ## 2. Flags -/

structure Options where
  /-- A prompt stands before each line. -/
  emitPrompt : Bool := true
  /-- Diagnostics at the level of debugging. -/
  verbose : Bool := false
  /-- Show the usage and do nothing else. -/
  help : Bool := false
  /-- The history file; there is none without a home directory. -/
  historyPath : Option String := none
  deriving DecidableEq, Repr

/-- Why an argument list is refused. -/
inductive OptionError where
  | unknownFlag (flag : Char)
  | unexpectedArgument (arg : String)
  deriving DecidableEq, Repr

/-- The explanation shown to the user. -/
def OptionError.message : OptionError → String
  | unknownFlag flag => "unknown option: -" ++ String.singleton flag
  | unexpectedArgument arg => "unexpected argument: " ++ arg

namespace Options

/-- The flags in force before any argument. -/
def initial (home : Option String) : Options :=
  { historyPath := home.map (joinPath · historyName) }

def withFlag (o : Options) : Char → Except OptionError Options
  | 'h' => .ok { o with help := true }
  | 'v' => .ok { o with verbose := true }
  | 'p' => .ok { o with emitPrompt := false }
  | flag => .error (.unknownFlag flag)

/-- Turns on the flags of a group from left to right. -/
def withFlags (o : Options) : List Char → Except OptionError Options
  | [] => .ok o
  | flag :: rest =>
    match o.withFlag flag with
    | .ok o' => withFlags o' rest
    | .error e => .error e

/-- The letters of an argument: what follows its dash, if there is anything. -/
def letters? (arg : String) : Option (List Char) :=
  match arg.toList with
  | '-' :: flag :: rest => some (flag :: rest)
  | _ => none

/-- Reads the arguments from left to right on top of `o`. -/
def withArgs (o : Options) : List String → Except OptionError Options
  | [] => .ok o
  | arg :: rest =>
    match letters? arg with
    | none => .error (.unexpectedArgument arg)
    | some flags =>
      match o.withFlags flags with
      | .ok o' => withArgs o' rest
      | .error e => .error e

/-- The flags of an argument list; the leftmost fault decides. -/
def ofArgs (home : Option String) (args : List String) : Except OptionError Options :=
  (initial home).withArgs args

/-- The diagnostics filter in force when the environment gives none. -/
def logDirective (o : Options) : String :=
  if o.verbose then "jobsh=debug" else "warn"

end Options

/-! ## 3. Usage -/

/-- How the shell is called. -/
def usage : String :=
  "Usage: jobsh [-hvp]\n" ++
  "   -h   print this message\n" ++
  "   -v   print additional diagnostic information\n" ++
  "   -p   do not emit a command prompt\n" ++
  "\n" ++
  "Built-in commands:\n" ++
  "   quit              exit the shell\n" ++
  "   jobs [> file]     list jobs\n" ++
  "   bg <pid|%jobid>   continue a job in the background\n" ++
  "   fg <pid|%jobid>   continue a job in the foreground\n"

end JobShell
