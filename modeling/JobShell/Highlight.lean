import JobShell.Builtin
import JobShell.Token.Lexer

/-!
# Highlighting

The line as it is shown while it is typed: the command word and the operators in colour, all else
untouched.

* `highlight` colours a line; a line that cannot be read is shown as it is.
* `strip` removes colour sequences again.
-/

namespace JobShell.Highlight

open Lexer (Item)

/-! ## 1. Colours -/

/-- The colours in use. -/
inductive Colour where
  | builtin
  | program
  | operator
  deriving DecidableEq, Repr

def escapeChar : Char := '\x1b'

/-- The sequence that switches a colour on: bold yellow, green, cyan. -/
def Colour.code : Colour → List Char
  | builtin => [escapeChar, '[', '1', ';', '3', '3', 'm']
  | program => [escapeChar, '[', '3', '2', 'm']
  | operator => [escapeChar, '[', '3', '6', 'm']

/-- The sequence that switches colours off. -/
def plainCode : List Char := [escapeChar, '[', '0', 'm']

def Colour.paint (colour : Colour) (text : List Char) : List Char :=
  colour.code ++ text ++ plainCode

/-- The colour of a command word: built-ins differ from programs. -/
def commandColour (word : String) : Colour :=
  if (Builtin.ofName? word).isSome then .builtin else .program

/-! ## 2. A line -/

/-- The coloured text of the readings of a line; `atCommand` as long as no word has been seen. There
is none if a reading fails. -/
def paintAll : (atCommand : Bool) → List Item → Option (List Char)
  | _, [] => some []
  | _, .error _ :: _ => none
  | atCommand, .ok (.word w) :: rest =>
    let text := if atCommand then (commandColour w).paint w.toList else w.toList
    (paintAll false rest).map (text ++ ·)
  | atCommand, .ok (.operator op) :: rest =>
    (paintAll atCommand rest).map (Colour.operator.paint op.symbol.toList ++ ·)
  | atCommand, .ok (.blank s) :: rest => (paintAll atCommand rest).map (s.toList ++ ·)
  | _, .ok .endOfLine :: _ => some []

/-- The line in colour. -/
def highlight (line : String) : String :=
  match paintAll true (Lexer.stream Lexer.highlight line.toList) with
  | some text => String.ofList text
  | none => line

/-! ## 3. Removing colours -/

/-- A character inside a colour sequence. -/
def isParameter (c : Char) : Bool := c.isDigit || c = ';'

/-- Removes each sequence of the escape character, a bracket, digits and semicolons, and the letter
`m`. `held` is a sequence that is still incomplete; if it turns out to be none, it is text. -/
def stripFrom : (held : List Char) → List Char → List Char
  | held, [] => held
  | [], c :: cs => if c = escapeChar then stripFrom [c] cs else c :: stripFrom [] cs
  | [e], c :: cs =>
    if c = '[' then stripFrom [e, c] cs
    else e :: (if c = escapeChar then stripFrom [c] cs else c :: stripFrom [] cs)
  | e :: b :: ps, c :: cs =>
    if c = 'm' then stripFrom [] cs
    else if isParameter c then stripFrom (e :: b :: (ps ++ [c])) cs
    else (e :: b :: ps) ++ (if c = escapeChar then stripFrom [c] cs else c :: stripFrom [] cs)

/-- A text without its colour sequences. -/
def strip (text : String) : String := String.ofList (stripFrom [] text.toList)

example : highlight "jobs > out" = "\x1b[1;33mjobs\x1b[0m \x1b[36m>\x1b[0m out" := by
  decide +kernel

end JobShell.Highlight
