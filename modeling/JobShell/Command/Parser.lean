import JobShell.Command
import JobShell.Token.Lexer

/-!
# Reading commands

A parser holds the token it stands at and the readings still ahead. A reading that fails is taken
off what is ahead, but the token the parser stands at stays: so a parser can be asked again after
an error, and goes on from where it stopped.

* `Parser.start?` looks at the first token of a line.
* `Parser.parse` reads one command to the end of the line; the recursion is on what is ahead.
* `Command.ofLine` is the reading of a line that is evaluated.
-/

namespace JobShell

open Lexer (Item Mode)

/-- What reading a command gives: nothing for a blank line, a command, or the reason why not. -/
abbrev Parsed := Except SyntaxError (Option Command)

/-- A parser between two calls. -/
structure Parser where
  /-- The token it stands at. -/
  current : Token
  /-- The readings it has not asked for yet. -/
  ahead : List Item
  deriving Repr

namespace Parser

/-! ## 1. Starting -/

/-- A parser on the readings of a line; the first of them must be a token. -/
def start? : List Item → Except SyntaxError Parser
  | [] => .ok ⟨.endOfLine, []⟩
  | .ok t :: ahead => .ok ⟨t, ahead⟩
  | .error e :: _ => .error e

/-- A parser on a line, read in a mode. -/
def ofLine (m : Mode) (line : String) : Except SyntaxError Parser :=
  start? (Lexer.stream m line.toList)

/-! ## 2. One command -/

/-- The command at the end of the line. A line without words is blank, unless something on it needs
a command. -/
def finish (c : Command) : Parsed :=
  if c.args.isEmpty then
    if c.infile.isSome || c.outfile.isSome || c.background then .error .missingCommand
    else .ok none
  else .ok (some c)

/-- The file a command already has for a redirection. -/
def target? (c : Command) (toInput : Bool) : Option String :=
  if toInput then c.infile else c.outfile

/-- The command with the file of a redirection filled in. -/
def withTarget (c : Command) (toInput : Bool) (path : String) : Command :=
  if toInput then { c with infile := some path } else { c with outfile := some path }

/-- What the token at hand asks for. -/
inductive Demand where
  /-- The line is at its end. -/
  | finish
  /-- The line is refused here. -/
  | refuse (e : SyntaxError)
  /-- Go on with this command after the token. -/
  | advance (c : Command)
  /-- The next token must name the file of a redirection. -/
  | redirect (toInput : Bool)
  deriving Repr

/-- What a token asks for, given the command so far. -/
def demand (c : Command) : Token → Demand
  | .endOfLine => .finish
  | .word w =>
    if c.background then .refuse .wordAfterBackground
    else .advance { c with args := c.args ++ [w] }
  | .blank _ => .advance c
  | .operator .background =>
    if c.background then .refuse .wordAfterBackground else .advance { c with background := true }
  | .operator .input => .redirect true
  | .operator .output => .redirect false
  | .operator op => .refuse (.unsupported op)

/-- Reads on from the token `t`, having read `c`. Gives what was read and the parser left behind. -/
def parseFrom (c : Command) (t : Token) : List Item → Parsed × Parser
  | [] =>
    match demand c t with
    | .finish => (finish c, ⟨t, []⟩)
    | .refuse e => (.error e, ⟨t, []⟩)
    | .advance c' => (finish c', ⟨.endOfLine, []⟩)
    | .redirect _ => (.error .missingTarget, ⟨.endOfLine, []⟩)
  | item :: ahead =>
    match demand c t with
    | .finish => (finish c, ⟨t, item :: ahead⟩)
    | .refuse e => (.error e, ⟨t, item :: ahead⟩)
    | .advance c' =>
      match item with
      | .error e => (.error e, ⟨t, ahead⟩)
      | .ok t' => parseFrom c' t' ahead
    | .redirect toInput =>
      match item with
      | .error e => (.error e, ⟨t, ahead⟩)
      | .ok (.word path) =>
        if (target? c toInput).isSome then (.error .ambiguousRedirection, ⟨.word path, ahead⟩)
        else match ahead with
          | [] => (finish (withTarget c toInput path), ⟨.endOfLine, []⟩)
          | .error e :: ahead' => (.error e, ⟨.word path, ahead'⟩)
          | .ok t' :: ahead' => parseFrom (withTarget c toInput path) t' ahead'
      | .ok t' => (.error .missingTarget, ⟨t', ahead⟩)

/-- Reads a command from where the parser stands. -/
def parse (p : Parser) : Parsed × Parser := parseFrom {} p.current p.ahead

/-- The results of `n` calls on one parser, one after the other. -/
def parses : Nat → Parser → List Parsed
  | 0, _ => []
  | n + 1, p => p.parse.1 :: parses n p.parse.2

end Parser

/-! ## 3. A line -/

/-- The command that a line asks for. -/
def Command.ofLine (line : String) : Parsed :=
  match Parser.ofLine Lexer.plain line with
  | .ok p => p.parse.1
  | .error e => .error e

end JobShell
