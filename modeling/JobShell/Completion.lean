import JobShell.Files

/-!
# File name completion

What the word before the cursor can be completed to.

* `Word.at` finds the word: inside an open quote it starts after the mark, else after the last
  character that breaks words and is not escaped.
* `complete` lists the entries of the directory that the word names, each with the text that
  replaces the word.
-/

namespace JobShell.Completion

/-! ## 1. Quotes and breaks -/

/-- The quotes that the cursor stands inside of. -/
inductive Quoting where
  | none
  | single
  | double
  deriving DecidableEq, Repr

def backslash : Char := '\\'

/-- A character that ends a word outside quotes. -/
def breaks (c : Char) : Bool := " \t\n\x00\"\\'`@$><=;|&\x7b(".toList.contains c

/-- A character that keeps a meaning inside double quotes. -/
def specialInDouble (c : Char) : Bool := "\"$\\`".toList.contains c

/-- How far a scan from the left has come. -/
inductive Scan where
  | outside
  | escaped
  | single
  | double
  | escapedInDouble
  deriving DecidableEq, Repr

/-- The scan after one more character. -/
def Scan.step : Scan → Char → Scan
  | outside, c =>
    if c = '"' then double else if c = backslash then escaped
    else if c = '\'' then single else outside
  | escaped, _ => outside
  | single, c => if c = '\'' then outside else single
  | double, c => if c = '"' then outside else if c = backslash then escapedInDouble else double
  | escapedInDouble, _ => double

/-- The text after the mark of the quote that is open at the end, with the quote. `word` is what
follows the last mark that opened a quote. -/
def openQuote (s : Scan) (word : List Char) : List Char → Option (Quoting × List Char)
  | [] =>
    match s with
    | .single => some (.single, word)
    | .double => some (.double, word)
    | .escapedInDouble => some (.double, word)
    | _ => none
  | c :: cs =>
    match s, s.step c with
    | .outside, .single => openQuote .single cs cs
    | .outside, .double => openQuote .double cs cs
    | _, s' => openQuote s' word cs

/-! ## 2. The word -/

/-- Removes escapes: the character after a backslash stands for itself. -/
def unescape : List Char → List Char
  | [] => []
  | [c] => if c = backslash then [] else [c]
  | c :: d :: cs => if c = backslash then d :: unescape cs else c :: unescape (d :: cs)

/-- The last word of a text that is given backwards, `word` being what was found of it: up to the
first character that breaks words and has no backslash before it. -/
def lastWord (word : List Char) : List Char → List Char
  | [] => word
  | [c] => if breaks c then word else c :: word
  | c :: d :: cs =>
    if breaks c then
      if d = backslash then lastWord (d :: c :: word) cs else word
    else lastWord (c :: word) (d :: cs)

/-- A word to complete. -/
structure Word where
  /-- The byte where it starts. -/
  start : Nat
  quoting : Quoting
  /-- The path it names. -/
  path : List Char
  deriving DecidableEq, Repr

/-- The word that ends a text. -/
def Word.at (cs : List Char) : Word :=
  let word (q : Quoting) (raw path : List Char) : Word :=
    ⟨Text.width cs - Text.width raw, q, path⟩
  match openQuote .outside [] cs with
  | some (.double, raw) => word .double raw (unescape raw)
  | some (q, raw) => word q raw raw
  | none =>
    let raw := lastWord [] cs.reverse
    word .none raw (unescape raw)

/-! ## 3. Candidates -/

/-- Whether a character needs an escape, by the quotes around it. -/
def needsEscape : Quoting → Char → Bool
  | .none => breaks
  | .double => specialInDouble
  | .single => fun _ => false

/-- A text as it is typed inside the quotes. -/
def typed (q : Quoting) (cs : List Char) : List Char :=
  cs.flatMap fun c => if needsEscape q c then [backslash, c] else [c]

/-- One way to complete a word. -/
structure Candidate where
  /-- The name that is offered. -/
  display : String
  /-- What replaces the word. -/
  replacement : String
  deriving DecidableEq, Repr

/-- The directory part of a path, up to and with its last slash. -/
def directoryPart (path : List Char) : List Char :=
  (path.reverse.dropWhile (· ≠ '/')).reverse

/-- The name part of a path, after its last slash. -/
def namePart (path : List Char) : List Char :=
  (path.reverse.takeWhile (· ≠ '/')).reverse

/-- The names that lead to the directory of a path. A path that starts with the name `~` starts at
the home directory, and any other that does not start with a slash at the working directory. -/
def directoryNames (home : Place) (t : FileTree) (dir : List Char) : Place × List String :=
  match FileTree.names (String.ofList dir) with
  | "~" :: rest => (home, rest)
  | all => (t.start (String.ofList dir), all)

/-- The ways to complete the word before the cursor, by the name that is offered. -/
def candidates (t : FileTree) (home : Place) (w : Word) : List Candidate :=
  let dir := directoryPart w.path
  let (start, names) := directoryNames home t dir
  match t.walk start names with
  | .error _ => []
  | .ok p =>
    let found := (t.entries p).filter fun (name, _) => (namePart w.path).isPrefixOf name.toList
    (found.map fun (name, node) =>
      let tail := if node = .directory then ['/'] else []
      { display := name
        replacement := String.ofList (typed w.quoting (dir ++ name.toList ++ tail)) }).mergeSort
      fun a b => a.display ≤ b.display

/-- The text before a byte position. -/
def before (line : String) (pos : Nat) : List Char := Text.fitting pos line.toList

/-- Where the word before the cursor starts, and the ways to complete it. -/
def complete (t : FileTree) (home : Place) (line : String) (pos : Nat) : Nat × List Candidate :=
  let w := Word.at (before line pos)
  (w.start, candidates t home w)

end JobShell.Completion
