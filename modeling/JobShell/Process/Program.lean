import JobShell.Files
import JobShell.Signal
import JobShell.Text.Decimal

/-!
# Programs of the system

What the programs do that commands usually call.

* `Program` lists them, `Program.name` is the name of each.
* `Program.run` runs one that does all its work at once: what it writes, how it changes files, how
  long it sleeps, which signals it sends, and its status.

NOT here: programs that start other programs (the command interpreter and `env`), which need to know
how programs are found; and every option beyond the common ones.
-/

namespace JobShell

open Text (bytes)

/-! ## 1. Names -/

/-- A program. -/
inductive Program where
  | succeed
  | fail
  | echo
  | printf
  | cat
  | head
  | tail
  | wc
  | sort
  | ls
  | touch
  | rm
  | mkdir
  | seq
  | sleep
  | kill
  | env
  | sh
  deriving DecidableEq, Repr

namespace Program

/-- The programs. -/
def all : List Program :=
  [succeed, fail, echo, printf, cat, head, tail, wc, sort, ls, touch, rm, mkdir, seq, sleep, kill,
    env, sh]

/-- The name of a program. -/
def name : Program → String
  | succeed => "true"
  | fail => "false"
  | echo => "echo"
  | printf => "printf"
  | cat => "cat"
  | head => "head"
  | tail => "tail"
  | wc => "wc"
  | sort => "sort"
  | ls => "ls"
  | touch => "touch"
  | rm => "rm"
  | mkdir => "mkdir"
  | seq => "seq"
  | sleep => "sleep"
  | kill => "kill"
  | env => "env"
  | sh => "sh"

/-- The program of a name. -/
def ofName? (s : String) : Option Program := all.find? fun p => p.name == s

/-- **Every program is found by its name.** -/
theorem ofName?_name (p : Program) : ofName? p.name = some p := by
  cases p <;> decide

/-! ## 2. Running -/

/-- What a program finds. -/
structure Input where
  args : List String
  /-- What its standard input holds. -/
  stdin : Except Reason (List UInt8)
  files : FileTree

/-- What a program does. -/
structure Result where
  files : FileTree
  out : List UInt8 := []
  err : List UInt8 := []
  status : Nat := 0
  /-- It read its standard input. -/
  readsInput : Bool := false
  /-- Milliseconds that it sleeps before it ends. -/
  pause : Nat := 0
  /-- Signals that it sends, with their targets. -/
  signals : List (Int × Nat) := []

/-- One line of text. -/
def textLine (s : String) : List UInt8 := bytes (s ++ "\n")

/-- A complaint of a program about something, on a line. -/
def complaint (p : Program) (about what : String) : List UInt8 :=
  textLine (p.name ++ ": " ++ about ++ ": " ++ what)

/-- The hint that follows a complaint about a call. -/
def hint (p : Program) : List UInt8 :=
  textLine ("Try '" ++ p.name ++ " --help' for more information.")

/-! ## 3. Text with escapes -/

/-- The value of up to `n` octal digits, and what follows them. -/
def octal : (n : Nat) → (value : Nat) → List Char → Nat × List Char
  | n + 1, v, c :: cs =>
    if '0' ≤ c ∧ c ≤ '7' then octal n (8 * v + Text.digitValue c) cs else (v, c :: cs)
  | _, v, cs => (v, cs)

/-- The character that a letter stands for after a backslash. -/
def escaped? (c : Char) : Option Char :=
  match c with
  | 'a' => some '\x07'
  | 'b' => some '\x08'
  | 'f' => some '\x0c'
  | 'n' => some '\n'
  | 'r' => some '\r'
  | 't' => some '\t'
  | 'v' => some '\x0b'
  | '\\' => some '\\'
  | _ => none

/-- The bytes of a text with escapes, and whether it goes on to its end: `\c` ends it. -/
def unescape : (bound : Nat) → List Char → List UInt8 × Bool
  | 0, _ => ([], true)
  | _ + 1, [] => ([], true)
  | n + 1, '\\' :: c :: cs =>
    if c = 'c' then ([], false)
    else if c = '0' then
      let (v, rest) := octal 3 0 cs
      let (bs, more) := unescape n rest
      (UInt8.ofNat v :: bs, more)
    else match escaped? c with
      | some d =>
        let (bs, more) := unescape n cs
        (Text.encode [d] ++ bs, more)
      | none =>
        let (bs, more) := unescape n cs
        (Text.encode ['\\', c] ++ bs, more)
  | n + 1, c :: cs =>
    let (bs, more) := unescape n cs
    (Text.encode [c] ++ bs, more)

/-- What `echo` writes: its arguments on a line, with or without escapes and the end of the line. -/
def echoed (escapes newline : Bool) (args : List String) : List UInt8 :=
  let text := " ".intercalate args
  let feed := if newline then [10] else []
  if escapes then
    let (bs, more) := unescape (text.length + 1) text.toList
    if more then bs ++ feed else bs
  else bytes text ++ feed

/-- Whether an argument holds options of `echo`. -/
def isEchoOption (s : String) : Bool :=
  match s.toList with
  | '-' :: c :: cs => (c :: cs).all "neE".toList.contains
  | _ => false

/-- Reads the options of `echo`. -/
def runEcho (escapes newline : Bool) : List String → List UInt8
  | [] => echoed escapes newline []
  | a :: rest =>
    if isEchoOption a then
      let last := (a.toList.filter (· ≠ 'n')).getLast?
      let escapes' := if last = some 'e' then true else if last = some 'E' then false else escapes
      runEcho escapes' (newline && !a.toList.contains 'n') rest
    else echoed escapes newline (a :: rest)

/-- The text that a format gives with arguments put in: `%s` and `%d` take one each, `%%` is a
percent sign. -/
def formatted : List Char → List String → List Char
  | '%' :: '%' :: cs, args => '%' :: formatted cs args
  | '%' :: c :: cs, args =>
    if c = 's' ∨ c = 'd' then
      match args with
      | [] => (if c = 'd' then ['0'] else []) ++ formatted cs []
      | a :: rest => a.toList ++ formatted cs rest
    else '%' :: c :: formatted cs args
  | c :: cs, args => c :: formatted cs args
  | [], _ => []

/-! ## 4. Texts of files -/

/-- A text with the lines of its bytes. The last line may lack its line feed. -/
def linesOf (bs : List UInt8) : List (List UInt8) :=
  let all := Text.pieces (10 : UInt8) bs
  let rest := all.getLastD []
  all.dropLast.map (· ++ [10]) ++ if rest.isEmpty then [] else [rest]

/-- What a program has to read for a name; `-` is its standard input. -/
def source (i : Input) (name : String) : Except Reason (List UInt8) :=
  if name = "-" then i.stdin
  else (i.files.openInput name).bind i.files.readAll

/-- Runs a program that turns each text it reads into another. A text that cannot be read is
complained about as `describe` says. -/
def overTexts (i : Input) (names : List String) (describe : String → Reason → List UInt8)
    (f : List UInt8 → List UInt8) : Result :=
  let names := if names.isEmpty then ["-"] else names
  names.foldl (fun r name =>
    match source i name with
    | .ok bs => { r with out := r.out ++ f bs, readsInput := r.readsInput || name == "-" }
    | .error e => { r with err := r.err ++ describe name e, status := 1 })
    { files := i.files }

/-- A count given as `-n` and a number, as both in one, or as a number after a dash; and the other
arguments. -/
def lineCount : List String → Nat × List String
  | "-n" :: n :: rest => (Text.leadingNatural n.toList, rest)
  | a :: rest =>
    match a.toList with
    | '-' :: 'n' :: c :: cs => (Text.leadingNatural (c :: cs), rest)
    | '-' :: c :: cs =>
      if c.isDigit then (Text.leadingNatural (c :: cs), rest) else (10, a :: rest)
    | _ => (10, a :: rest)
  | [] => (10, [])

/-- Whether some text cannot be opened, or was opened and cannot be read. -/
def describeOpen (p : Program) (name : String) (r : Reason) : List UInt8 :=
  if r = .isDirectory then
    textLine (p.name ++ ": error reading '" ++
      (if name = "-" then "standard input" else name) ++ "': " ++ r.text)
  else textLine (p.name ++ ": cannot open '" ++ name ++ "' for reading: " ++ r.text)

/-- The number of words of a text. -/
def wordCount : (inside : Bool) → List UInt8 → Nat
  | _, [] => 0
  | inside, b :: bs =>
    if b = 32 || (9 ≤ b && b ≤ 13) then wordCount false bs
    else (if inside then 0 else 1) + wordCount true bs

/-- A number on at least some places. -/
def onPlaces (places n : Nat) : String :=
  let s := Text.natural n
  String.ofList (List.replicate (places - s.length) ' ') ++ s

/-- Counts the lines, words and bytes of one text. -/
def runCount (i : Input) : Result :=
  let (options, names) := i.args.span fun a => a.startsWith "-" && a ≠ "-"
  let letters := options.flatMap fun a => a.toList.drop 1
  let wants (c : Char) : Bool := letters.isEmpty || letters.contains c
  let name := names.headD "-"
  match source i name with
  | .error r => { files := i.files, err := complaint .wc name r.text, status := 1 }
  | .ok bs =>
    let counts := [('l', bs.count 10), ('w', wordCount false bs), ('c', bs.length)].filter
      fun (c, _) => wants c
    let places := if counts.length = 1 then 1 else (Text.natural bs.length).length
    let line := " ".intercalate (counts.map fun (_, n) => onPlaces places n)
    { files := i.files, readsInput := name == "-"
      out := textLine (if names.isEmpty then line else line ++ " " ++ name) }

/-- Whether bytes come before others. -/
def notAfter : List UInt8 → List UInt8 → Bool
  | [], _ => true
  | _ :: _, [] => false
  | a :: as, b :: bs => a < b || (a == b && notAfter as bs)

/-- The lines of a text in order. -/
def sorted (reverse : Bool) (bs : List UInt8) : List UInt8 :=
  let ls := (linesOf bs).map fun l => l.filter (· ≠ 10)
  let ordered := ls.mergeSort notAfter
  (if reverse then ordered.reverse else ordered).flatMap (· ++ [10])

/-! ## 5. Files -/

/-- Lists a directory or a file. -/
def runList (i : Input) : Result :=
  let (options, names) := i.args.span fun a => a.startsWith "-"
  let hidden := options.any fun a => a.toList.contains 'a'
  let path := names.headD "."
  match i.files.place path with
  | .error r =>
    { files := i.files, status := 2
      err := textLine ("ls: cannot access '" ++ path ++ "': " ++ r.text) }
  | .ok p =>
    if i.files.isDirectory p then
      match i.files.refusal? .read p with
      | some r =>
        { files := i.files, status := 2
          err := textLine ("ls: cannot open directory '" ++ path ++ "': " ++ r.text) }
      | none =>
        let all := (i.files.entries p).map (·.1)
        let shown := if hidden then [".", ".."] ++ all else all.filter (!·.startsWith ".")
        { files := i.files, out := (shown.mergeSort (· ≤ ·)).flatMap textLine }
    else { files := i.files, out := textLine path }

/-- Creates the files that do not exist. -/
def runTouch (i : Input) : Result :=
  i.args.foldl (fun r name =>
    match r.files.place name with
    | .ok _ => r
    | .error _ =>
      match r.files.openOutput name with
      | .ok (files, _) => { r with files }
      | .error e =>
        { r with status := 1
                 err := r.err ++ textLine ("touch: cannot touch '" ++ name ++ "': " ++ e.text) })
    { files := i.files }

/-- Removes files. -/
def runRemove (i : Input) : Result :=
  let (options, names) := i.args.span fun a => a.startsWith "-"
  let quiet := options.any fun a => a.toList.contains 'f'
  let complain (r : Result) (name what : String) : Result :=
    { r with status := 1, err := r.err ++ textLine ("rm: cannot remove '" ++ name ++ "': " ++ what) }
  names.foldl (fun r name =>
    match r.files.place name with
    | .error .noEntry => if quiet then r else complain r name Reason.noEntry.text
    | .error e => complain r name e.text
    | .ok p =>
      if r.files.isDirectory p then complain r name Reason.isDirectory.text
      else match r.files.refusal? .change p.dropLast with
        | some e => complain r name e.text
        | none => { r with files := r.files.eraseNode p })
    { files := i.files }

/-- Creates directories. -/
def runMakeDirectory (i : Input) : Result :=
  i.args.foldl (fun r name =>
    let complain (what : String) : Result :=
      { r with status := 1
               err := r.err ++ textLine ("mkdir: cannot create directory '" ++ name ++ "': " ++ what) }
    match r.files.place name with
    | .ok _ => complain "File exists"
    | .error .noEntry =>
      match r.files.openOutput name with
      | .ok (files, p) => { r with files := files.setNode p .directory }
      | .error e => complain e.text
    | .error e => complain e.text)
    { files := i.files }

/-! ## 6. Time and signals -/

/-- The milliseconds of a duration in seconds, or in the unit of its last letter. -/
def duration? (s : String) : Option Nat :=
  let cs := s.toList
  let (unit, digits) := match cs.getLast? with
    | some 's' => (1, cs.dropLast)
    | some 'm' => (60, cs.dropLast)
    | some 'h' => (3600, cs.dropLast)
    | some 'd' => (86400, cs.dropLast)
    | _ => (1, cs)
  match Text.pieces '.' digits with
  | [whole] =>
    if whole.isEmpty || !whole.all Char.isDigit then none
    else some (unit * 1000 * Text.leadingNatural whole)
  | [whole, part] =>
    if whole.length + part.length = 0 || !(whole ++ part).all Char.isDigit then none
    else
      let thousandths := Text.leadingNatural ((part ++ ['0', '0', '0']).take 3)
      some (unit * (1000 * Text.leadingNatural whole + thousandths))
  | _ => none

/-- Sleeps for the sum of its arguments. -/
def runSleep (i : Input) : Result :=
  if i.args.isEmpty then
    { files := i.files, status := 1, err := textLine "sleep: missing operand" ++ hint .sleep }
  else match i.args.mapM duration? with
    | some ds => { files := i.files, pause := ds.foldl (· + ·) 0 }
    | none =>
      let bad := i.args.filter fun a => (duration? a).isNone
      { files := i.files, status := 1
        err := bad.flatMap (fun a => textLine ("sleep: invalid time interval '" ++ a ++ "'"))
          ++ hint .sleep }

/-- The signal that a call of `kill` asks for, and its targets. -/
def killRequest? : List String → Option (Nat × List String)
  | "-s" :: name :: rest => (Signal.ofName? name).map (·, rest)
  | a :: rest =>
    match a.toList with
    | '-' :: cs => (Signal.ofName? (String.ofList cs)).map (·, rest)
    | _ => some (Signal.terminate, a :: rest)
  | [] => none

/-- The process that a target of `kill` names. -/
def target? (s : String) : Option Int :=
  match s.toList with
  | '-' :: cs =>
    if cs.isEmpty || !cs.all Char.isDigit then none
    else some (-(Text.leadingNatural cs : Int))
  | cs => if cs.isEmpty || !cs.all Char.isDigit then none else some (Text.leadingNatural cs : Int)

/-- Sends signals. -/
def runKill (i : Input) : Result :=
  match killRequest? i.args with
  | none => { files := i.files, status := 1, err := textLine "kill: usage: kill [-signal] pid ..." }
  | some (n, targets) =>
    match targets.mapM target? with
    | some pids => { files := i.files, signals := pids.map (·, n) }
    | none =>
      { files := i.files, status := 1
        err := textLine "kill: arguments must be process or job IDs" }

/-! ## 7. All together -/

/-- Counts from the first number to the last. -/
def runCountUp (args : List String) : List UInt8 :=
  let number (s : String) : Nat := Text.leadingNatural s.toList
  let (lo, hi) := match args with
    | [hi] => (1, number hi)
    | lo :: hi :: _ => (number lo, number hi)
    | [] => (1, 0)
  (List.range (hi + 1 - lo)).flatMap fun k => textLine (Text.natural (lo + k))

/-- Runs a program. -/
def run (p : Program) (i : Input) : Result :=
  match p with
  | succeed => { files := i.files }
  | fail => { files := i.files, status := 1 }
  | echo => { files := i.files, out := runEcho false true i.args }
  | printf =>
    match i.args with
    | [] => { files := i.files, status := 1, err := textLine "printf: missing operand" ++ hint p }
    | f :: args =>
      let cs := formatted f.toList args
      { files := i.files, out := (unescape (cs.length + 1) cs).1 }
  | cat => overTexts i i.args (fun name r => complaint p name r.text) id
  | head =>
    let (n, names) := lineCount i.args
    overTexts i names (describeOpen p) fun bs => ((linesOf bs).take n).flatten
  | tail =>
    let (n, names) := lineCount i.args
    overTexts i names (describeOpen p) fun bs =>
      let ls := linesOf bs
      (ls.drop (ls.length - n)).flatten
  | wc => runCount i
  | sort =>
    let (options, names) := i.args.span fun a => a.startsWith "-" && a ≠ "-"
    overTexts i names (fun name r => textLine ("sort: cannot read: " ++ name ++ ": " ++ r.text))
      (sorted (options.contains "-r"))
  | ls => runList i
  | touch => runTouch i
  | rm => runRemove i
  | mkdir => runMakeDirectory i
  | seq => { files := i.files, out := runCountUp i.args }
  | sleep => runSleep i
  | kill => runKill i
  | env => { files := i.files }
  | sh => { files := i.files }

end Program

end JobShell
