import JobShell.Text.Pieces

/-!
# Diagnostics

Lines for whoever wants to know what the shell is doing, apart from what it says to its user.

* `Level` says how important a line is, `Filter` which lines are wanted.
* `Filter.parse?` reads a filter: levels, or parts of the program with levels, between commas.
* `Entry.line` is how a line looks.
-/

namespace JobShell.Diagnostics

/-! ## 1. Levels -/

/-- The importance of a line, the most important first. -/
inductive Level where
  | error
  | warn
  | info
  | debug
  | trace
  deriving DecidableEq, Repr

namespace Level

/-- Higher numbers are less important. -/
def rank : Level → Nat
  | error => 1
  | warn => 2
  | info => 3
  | debug => 4
  | trace => 5

def name : Level → String
  | error => "ERROR"
  | warn => "WARN"
  | info => "INFO"
  | debug => "DEBUG"
  | trace => "TRACE"

/-- The name on five places. -/
def padded (l : Level) : String :=
  String.ofList (List.replicate (5 - l.name.length) ' ') ++ l.name

end Level

/-! ## 2. Filters -/

/-- Lets lines up to a rank pass that come from a part of the program; rank 0 lets none pass. -/
structure Directive where
  /-- The start of the names of the parts; all of them if it is empty. -/
  target : List Char
  rank : Nat
  deriving DecidableEq, Repr

structure Filter where
  directives : List Directive
  deriving DecidableEq, Repr

/-- The rank that a word names. -/
def rank? (word : List Char) : Option Nat :=
  match String.ofList (word.map Char.toLower) with
  | "off" => some 0
  | "0" => some 0
  | "error" => some 1
  | "1" => some 1
  | "warn" => some 2
  | "2" => some 2
  | "info" => some 3
  | "3" => some 3
  | "debug" => some 4
  | "4" => some 4
  | "trace" => some 5
  | "5" => some 5
  | _ => none

/-- A character of the name of a part. -/
def isTargetChar (c : Char) : Bool := c.isAlphanum || c = '_' || c = ':' || c = '-'

/-- Reads a directive: a level, a part, or a part and a level. -/
def Directive.parse? (cs : List Char) : Option Directive :=
  match Text.pieces '=' cs with
  | [word] =>
    match rank? word with
    | some r => some ⟨[], r⟩
    | none => if word.all isTargetChar then some ⟨word, 5⟩ else none
  | [target, level] =>
    if target.isEmpty || !target.all isTargetChar then none
    else if level.isEmpty then some ⟨target, 5⟩
    else (rank? level).map fun r => ⟨target, r⟩
  | _ => none

namespace Filter

/-- Lets nothing pass. -/
def off : Filter := ⟨[⟨[], 0⟩]⟩

/-- Reads a filter. An empty one lets errors pass. -/
def parse? (s : String) : Option Filter :=
  match ((Text.pieces ',' s.toList).filter (!·.isEmpty)).mapM Directive.parse? with
  | none => none
  | some [] => some ⟨[⟨[], 1⟩]⟩
  | some ds => some ⟨ds⟩

/-- The directive that decides about a part: the one that names most of it, of two such the later. -/
def deciding? (f : Filter) (target : List Char) : Option Directive :=
  (f.directives.filter fun d => d.target.isPrefixOf target).foldl
    (fun best d => match best with
      | none => some d
      | some b => if d.target.length < b.target.length then some b else some d) none

def allows (f : Filter) (target : String) (l : Level) : Bool :=
  match f.deciding? target.toList with
  | some d => l.rank ≤ d.rank
  | none => false

end Filter

/-! ## 3. Lines -/

/-- One line. -/
structure Entry where
  level : Level
  /-- The part of the program that it comes from. -/
  target : String
  message : String
  /-- Named values. -/
  fields : List (String × String) := []
  deriving DecidableEq, Repr

/-- How a line looks that was written at some time. -/
def Entry.line (time : String) (e : Entry) : String :=
  time ++ " " ++ e.level.padded ++ " " ++ e.target ++ ": " ++ e.message ++
    String.join (e.fields.map fun (name, value) => " " ++ name ++ "=" ++ value)

example : (Entry.mk .warn "jobsh" "m" [("a", "1")]).line "T" = "T  WARN jobsh: m a=1" := by
  decide +kernel

end JobShell.Diagnostics
