import JobShell.Script

/-!
# Reading scripts

* `Script.lexemes?` cuts the text of a script into words and marks.
* `Script.ofText?` reads a script; there is none if a quote is left open or a construct is
  incomplete.

Both recursions carry a bound that the length of the text gives.
-/

namespace JobShell.Script

/-! ## 1. Words and marks -/

/-- A piece of a script. -/
inductive Lexeme where
  | word (line : Nat) (w : Word)
  | redirect (stream : Nat) (kind : RedirectKind)
  /-- `;`, `&`, `&&`, `||` or the end of a line. -/
  | mark (cs : List Char)
  deriving DecidableEq, Repr

/-- A character that ends an unquoted word. -/
def endsWord (c : Char) : Bool := " \t\n;&|<>()".toList.contains c

/-- A character of the name of a variable. -/
def isNameChar (c : Char) : Bool := c.isAlphanum || c = '_'

/-- The name of the parameter after a dollar sign, and what follows it. -/
def parameterName? : List Char → Option (List Char × List Char)
  | [] => none
  | c :: cs =>
    if c = '\x7b' then some (cs.takeWhile (· ≠ '\x7d'), (cs.dropWhile (· ≠ '\x7d')).tail)
    else if "@*#?$".toList.contains c || c.isDigit then some ([c], cs)
    else if c.isAlpha || c = '_' then
      some ((c :: cs).takeWhile isNameChar, (c :: cs).dropWhile isNameChar)
    else none

/-- Reads a part of a word between double quotes: what was read and what follows the closing
mark. -/
def doubleQuoted : (bound : Nat) → Word → List Char → Option (Word × List Char)
  | 0, _, _ => none
  | _ + 1, _, [] => none
  | n + 1, w, c :: cs =>
    if c = '"' then some (w, cs)
    else if c = '\\' then
      match cs with
      | d :: ds =>
        if "$`\"\\".toList.contains d then doubleQuoted n (w ++ [.text true [d]]) ds
        else doubleQuoted n (w ++ [.text true [c, d]]) ds
      | [] => none
    else if c = '$' then
      match parameterName? cs with
      | some (name, rest) => doubleQuoted n (w ++ [.parameter true name]) rest
      | none => doubleQuoted n (w ++ [.text true [c]]) cs
    else doubleQuoted n (w ++ [.text true [c]]) cs

/-- Reads a word: what was read and what follows it. -/
def word : (bound : Nat) → Word → List Char → Option (Word × List Char)
  | 0, _, _ => none
  | _ + 1, w, [] => some (w, [])
  | n + 1, w, c :: cs =>
    if endsWord c then some (w, c :: cs)
    else if c = '\'' then
      match cs.dropWhile (· ≠ '\'') with
      | [] => none
      | _ :: rest => word n (w ++ [.text true (cs.takeWhile (· ≠ '\''))]) rest
    else if c = '"' then
      match doubleQuoted n (w ++ [.text true []]) cs with
      | none => none
      | some (w', rest) => word n w' rest
    else if c = '\\' then word n (w ++ [.text true (cs.take 1)]) (cs.drop 1)
    else if c = '$' then
      match parameterName? cs with
      | some (name, rest) => word n (w ++ [.parameter false name]) rest
      | none => word n (w ++ [.text false [c]]) cs
    else word n (w ++ [.text false [c]]) cs

/-- The kind of a redirection, and what follows its mark. -/
def redirectKind (c : Char) (cs : List Char) : RedirectKind × List Char :=
  match c, cs with
  | '>', '>' :: rest => (.extend, rest)
  | '>', '&' :: rest => (.duplicate, rest)
  | '>', rest => (.write, rest)
  | _, rest => (.read, rest)

/-- The stream that a redirection is about when none is named. -/
def ownStream (c : Char) : Nat := if c = '>' then 1 else 0

/-- The pieces of a script from some line on. -/
def lexemes? : (bound : Nat) → (line : Nat) → List Char → Option (List Lexeme)
  | 0, _, _ => none
  | _ + 1, _, [] => some []
  | n + 1, line, c :: cs =>
    if c = ' ' ∨ c = '\t' then lexemes? n line cs
    else if c = '\n' then (lexemes? n (line + 1) cs).map (.mark ['\n'] :: ·)
    else if c = '#' then lexemes? n line (cs.dropWhile (· ≠ '\n'))
    else if c = '<' ∨ c = '>' then
      let (kind, rest) := redirectKind c cs
      (lexemes? n line rest).map (.redirect (ownStream c) kind :: ·)
    else if endsWord c then
      if cs.head? = some c then (lexemes? n line cs.tail).map (.mark [c, c] :: ·)
      else (lexemes? n line cs).map (.mark [c] :: ·)
    else
      match c.isDigit, cs with
      | true, '>' :: rest =>
        let (kind, rest') := redirectKind '>' rest
        (lexemes? n line rest').map (.redirect (Text.digitValue c) kind :: ·)
      | _, _ =>
        match word (n + 1) [] (c :: cs) with
        | none => none
        | some (w, rest) => (lexemes? n line rest).map (.word line w :: ·)

/-! ## 2. Commands -/

/-- The text of a word without quotes and parameters. -/
def plainText? : Word → Option (List Char)
  | [] => some []
  | .text false cs :: rest => (plainText? rest).map (cs ++ ·)
  | _ => none

/-- The words that shape a script instead of being run. -/
def reserved : List String :=
  ["while", "until", "do", "done", "if", "then", "else", "elif", "fi", "\x7b", "\x7d"]

/-- The reserved word that a piece is. -/
def reserved? : Lexeme → Option String
  | .word _ w =>
    match plainText? w with
    | some cs => reserved.find? (·.toList == cs)
    | none => none
  | _ => none

/-- Whether a piece separates commands. -/
def separates (l : Lexeme) : Bool :=
  l = .mark [';'] || l = .mark ['&'] || l = .mark ['\n']

/-- The rest after a reserved word that has to come next. -/
def after? (name : String) : List Lexeme → Option (List Lexeme)
  | l :: rest => if reserved? l = some name then some rest else none
  | [] => none

/-- The words and redirections of a simple command, and what follows it. -/
def simpleParts : List Lexeme → List Word × List Redirect × List Lexeme
  | .word _ w :: rest =>
    let (ws, rs, tail) := simpleParts rest
    (w :: ws, rs, tail)
  | .redirect stream kind :: .word _ w :: rest =>
    let (ws, rs, tail) := simpleParts rest
    (ws, ⟨stream, kind, w⟩ :: rs, tail)
  | tail => ([], [], tail)

/-- The line on which a piece stands. -/
def lineOf : List Lexeme → Nat
  | .word line _ :: _ => line
  | _ => 1

mutual

/-- Reads commands up to a word that closes a construct. -/
def readList : (bound : Nat) → List Lexeme → Option (Script × List Lexeme)
  | 0, _ => none
  | n + 1, ls =>
    match ls.dropWhile separates with
    | [] => some (.nothing, [])
    | l :: rest =>
      match reserved? l with
      | some "do" => some (.nothing, l :: rest)
      | some "done" => some (.nothing, l :: rest)
      | some "then" => some (.nothing, l :: rest)
      | some "else" => some (.nothing, l :: rest)
      | some "fi" => some (.nothing, l :: rest)
      | some "\x7d" => some (.nothing, l :: rest)
      | _ =>
        match readChain n (l :: rest) with
        | none => none
        | some (first, tail) =>
          match readList n tail with
          | none => none
          | some (.nothing, tail') => some (first, tail')
          | some (second, tail') => some (.sequence first second, tail')

/-- Reads commands that depend on each other's success. -/
def readChain : (bound : Nat) → List Lexeme → Option (Script × List Lexeme)
  | 0, _ => none
  | n + 1, ls =>
    match readCommand n ls with
    | none => none
    | some (first, tail) => readLinks n first tail

/-- Reads the commands that are linked to one that was read. -/
def readLinks : (bound : Nat) → Script → List Lexeme → Option (Script × List Lexeme)
  | 0, _, _ => none
  | n + 1, first, .mark ['&', '&'] :: rest =>
    match readCommand n rest with
    | none => none
    | some (second, tail) => readLinks n (.onSuccess first second) tail
  | n + 1, first, .mark ['|', '|'] :: rest =>
    match readCommand n rest with
    | none => none
    | some (second, tail) => readLinks n (.onFailure first second) tail
  | _ + 1, first, tail => some (first, tail)

def readCommand : (bound : Nat) → List Lexeme → Option (Script × List Lexeme)
  | 0, _ => none
  | _ + 1, [] => none
  | n + 1, l :: rest =>
    match reserved? l with
    | some "while" => readLoop n true rest
    | some "until" => readLoop n false rest
    | some "if" => readChoice n rest
    | some "\x7b" =>
      match readList n rest with
      | none => none
      | some (body, tail) => (after? "\x7d" tail).map (body, ·)
    | some _ => none
    | none =>
      let (ws, rs, tail) := simpleParts (l :: rest)
      if ws.isEmpty && rs.isEmpty then none
      else some (.simple (lineOf (l :: rest)) ws rs, tail)

/-- Reads a repetition after its first word. -/
def readLoop : (bound : Nat) → Bool → List Lexeme → Option (Script × List Lexeme)
  | 0, _, _ => none
  | n + 1, whileSuccess, ls =>
    match readList n ls with
    | none => none
    | some (test, tail) =>
      match (after? "do" tail).bind (readList n) with
      | none => none
      | some (body, tail') => (after? "done" tail').map (.loop whileSuccess test body, ·)

/-- Reads a choice after its first word. -/
def readChoice : (bound : Nat) → List Lexeme → Option (Script × List Lexeme)
  | 0, _ => none
  | n + 1, ls =>
    match readList n ls with
    | none => none
    | some (test, tail) =>
      match (after? "then" tail).bind (readList n) with
      | none => none
      | some (yes, tail') =>
        match after? "else" tail' with
        | none => (after? "fi" tail').map (.choose test yes .nothing, ·)
        | some rest =>
          match readList n rest with
          | none => none
          | some (no, tail'') => (after? "fi" tail'').map (.choose test yes no, ·)

end

def ofText? (text : String) : Option Script :=
  let cs := text.toList
  match lexemes? (cs.length + 1) 1 cs with
  | none => none
  | some ls =>
    match readList (4 * ls.length + 4) ls with
    | some (s, []) => some s
    | _ => none

end JobShell.Script
