import JobShell.Process.Image
import JobShell.Process.Surroundings
import JobShell.Script.Parser
import JobShell.Signal.Disposition

/-!
# Work of a process

What a process still has to do once it runs a program, and how it does a piece of it.

* `Work` is a stack of `Frame`s with the streams and the parameters that they use.
* `Work.turn` does the first piece: `Turn` is what comes out, for the process, for its surroundings
  and for others.

A command of a script is done by the process of the script itself, on its own stack.
-/

namespace JobShell

open Script (Parameters)

/-! ## 1. Work -/

/-- A piece of work. -/
inductive Frame where
  | run (s : Script)
  /-- Goes on with a script if the last status was a success, or if it was none. -/
  | runIf (success : Bool) (s : Script)
  | branch (yes no : Script)
  /-- Follows the test of a repetition. -/
  | again (whileSuccess : Bool) (test body : Script)
  | call (image : Image)
  /-- Puts the streams back. -/
  | restore (s : Streams)
  /-- Ends a script and goes back to the one that called it. -/
  | leave (p : Parameters) (s : Streams)
  deriving Repr

/-- What is left to do. -/
structure Work where
  frames : List Frame
  parameters : Parameters
  streams : Streams
  /-- Nothing is done before this time. -/
  wakeAt : Option Nat := none
  /-- The pieces of work done since time last went on. -/
  turns : Nat := 0
  deriving Repr

/-- What comes out of a piece of work. -/
structure Turn where
  work : Work
  around : Surroundings
  /-- Signals that are sent, with their targets. -/
  signals : List (Int × Nat) := []
  /-- What the process arranges for signals. -/
  arranged : List (Nat × Disposition) := []
  /-- The process ends with this status. -/
  ends : Option Nat := none

namespace Work

/-- The work of a process that was just started to run a program. -/
def ofImage (pid parent : Int) (streams : Streams) (image : Image) : Work :=
  { frames := [.call image], streams, parameters := { name := "", pid, parent } }

/-- The work with another last status. -/
def withStatus (w : Work) (status : Nat) : Work :=
  { w with parameters := { w.parameters with status } }

/-- The work with another piece in front. -/
def push (w : Work) (f : Frame) : Work := { w with frames := f :: w.frames }

/-- Writes a complaint and remembers the failure. -/
def complain (w : Work) (s : Surroundings) (status : Nat) (what : String) : Turn :=
  { work := w.withStatus status, around := (s.write w.streams.errors (Program.textLine what)).1 }

/-! ## 2. Programs -/

/-- Runs a program that does all its work at once. -/
def perform (w : Work) (s : Surroundings) (p : Program) (r : Program.Result) : Turn :=
  let s := { s with files := r.files }
  let (s, input) := if r.readsInput then s.drained w.streams.input else (s, w.streams.input)
  let (s, ok) := s.write w.streams.output r.out
  let fault := if ok then [] else Program.complaint p "write error" Reason.noSpace.text
  let (s, _) := s.write w.streams.errors (r.err ++ fault)
  let w := w.withStatus (if ok then r.status else 1)
  { around := s, signals := r.signals
    work := { w with
      streams := { w.streams with input }
      wakeAt := if r.pause = 0 then none else some (s.clock + r.pause) } }

/-- Begins a script that is given as text. -/
def beginScript (w : Work) (s : Surroundings) (name : String) (args : List String)
    (text : String) : Turn :=
  match Script.ofText? text with
  | none => w.complain s 2 (name ++ ": 1: Syntax error")
  | some script =>
    let inner : Parameters := { w.parameters with name, args, bindings := [], status := 0 }
    let frames := .run script :: .leave w.parameters w.streams :: w.frames
    { work := { w with frames, parameters := inner }, around := s }

/-- The text of bytes; those that are none give an empty script. -/
def scriptText (bs : List UInt8) : String := (Text.decode? bs).getD ""

/-- Runs the command interpreter: on a text, on a file or on its input. -/
def interpret (w : Work) (s : Surroundings) : List String → Turn
  | "-c" :: text :: name :: args => w.beginScript s name args text
  | ["-c", text] => w.beginScript s "sh" [] text
  | ["-c"] => w.complain s 2 "sh: 0: -c requires an argument"
  | path :: args =>
    match (s.files.openInput path).bind s.files.readAll with
    | .ok bs => w.beginScript s path args (scriptText bs)
    | .error _ => w.complain s 2 ("sh: 0: cannot open " ++ path ++ ": No such file")
  | [] =>
    match s.content w.streams.input with
    | .ok bs =>
      let (s, input) := s.drained w.streams.input
      ({ w with streams := { w.streams with input } } : Work).beginScript s "sh" []
        (scriptText bs)
    | .error _ => { work := w.withStatus 2, around := s }

/-- What an environment setting looks like. -/
def isSetting (arg : String) : Bool := arg.toList.contains '=' || arg = "-i" || arg = "-"

/-- Runs a program in another environment. -/
def callIn (w : Work) (s : Surroundings) (args : List String) : Turn :=
  match args.dropWhile isSetting with
  | [] => { work := w.withStatus 0, around := s }
  | name :: rest =>
    match s.files.image name rest with
    | .ok image => { work := w.push (.call image), around := s }
    | .error r =>
      w.complain s (if r = .noEntry then 127 else 126) ("env: '" ++ name ++ "': " ++ r.text)

/-- Runs a program. -/
def call (w : Work) (s : Surroundings) (image : Image) : Turn :=
  match image.program with
  | .sh => w.interpret s image.args
  | .env => w.callIn s image.args
  | p => w.perform s p
      (p.run { args := image.args, stdin := s.content w.streams.input, files := s.files })

/-! ## 3. Commands of scripts -/

/-- What an assignment gives a value to, and the value. -/
def assignment? : (name : List Char) → Word → Option (String × Word)
  | _, [] => none
  | name, .text false cs :: rest =>
    if cs = ['='] then
      if name.isEmpty then none else some (String.ofList name, rest)
    else if cs.all Script.isNameChar then assignment? (name ++ cs) rest
    else none
  | _, _ => none

/-- Makes the assignments in front of a command, and gives the words of the command. -/
def assign (p : Parameters) : List Word → Parameters × List Word
  | [] => (p, [])
  | word :: rest =>
    match assignment? [] word with
    | some (name, value) => assign (p.assign name (Script.expandText p value)) rest
    | none => (p, word :: rest)

/-- The streams with one of them replaced. -/
def withTarget (st : Streams) (stream : Nat) (t : Target) : Streams :=
  if stream = 2 then { st with errors := t } else { st with output := t }

/-- The target that a stream has. -/
def targetOf (st : Streams) (stream : Nat) : Target := if stream = 2 then st.errors else st.output

/-- Applies a redirection, or tells what is wrong with it. -/
def redirect (p : Parameters) (st : Streams) (s : Surroundings) (r : Redirect) :
    Except String (Streams × Surroundings) :=
  let path := Script.expandText p r.target
  match r.kind with
  | .read =>
    match s.files.openInput path with
    | .ok place => .ok ({ st with input := .file place }, s)
    | .error _ => .error ("cannot open " ++ path ++ ": No such file")
  | .write =>
    match s.files.openOutput path with
    | .ok (files, place) => .ok (withTarget st r.stream (.file place), { s with files })
    | .error e =>
      .error ("cannot create " ++ path ++ ": " ++
        if e = .noEntry then "Directory nonexistent" else e.text)
  | .extend =>
    let fault (e : Reason) : String := "cannot create " ++ path ++ ": " ++ e.text
    match s.files.place path with
    | .ok place =>
      match s.files.refusal? .write place with
      | some e => .error (fault e)
      | none => .ok (withTarget st r.stream (.file place), s)
    | .error _ =>
      match s.files.openOutput path with
      | .ok (files, place) => .ok (withTarget st r.stream (.file place), { s with files })
      | .error e => .error (fault e)
  | .duplicate =>
    .ok (withTarget st r.stream (targetOf st (Text.leadingNatural path.toList)), s)

/-- Applies redirections from left to right. -/
def redirectAll (p : Parameters) (st : Streams) (s : Surroundings) :
    List Redirect → Except String (Streams × Surroundings)
  | [] => .ok (st, s)
  | r :: rest =>
    match redirect p st s r with
    | .ok (st', s') => redirectAll p st' s' rest
    | .error e => .error e

/-- What a script arranges for a signal. -/
def trapDisposition (action : String) : Disposition :=
  if action = "-" then .default else if action.isEmpty then .ignore else .handler (.trap action)

/-- The pieces of work that are left when the innermost script ends. -/
def unwound (frames : List Frame) : List Frame :=
  frames.dropWhile fun f => match f with
    | .leave _ _ => false
    | _ => true

/-- The start of a complaint of a script. -/
def scriptTag (w : Work) (line : Nat) : String :=
  w.parameters.name ++ ": " ++ Text.natural line ++ ": "

/-- Runs the program that a command of a script names. -/
def runNamed (w : Work) (s : Surroundings) (line : Nat) (name : String) (args : List String) :
    Turn :=
  match s.files.image name args with
  | .ok image => { work := w.push (.call image), around := s }
  | .error r =>
    let (status, what) := if r = .noEntry then (127, "not found") else (126, r.text)
    w.complain s status (w.scriptTag line ++ name ++ ": " ++ what)

/-- Runs a command of a script. -/
def command (w : Work) (s : Surroundings) (line : Nat) : List String → Turn
  | [] => { work := w.withStatus 0, around := s }
  | ":" :: _ => { work := w.withStatus 0, around := s }
  | "echo" :: args =>
    let (newline, args) := match args with
      | "-n" :: rest => (false, rest)
      | _ => (true, args)
    w.perform s .echo { files := s.files, out := Program.echoed true newline args }
  | "exit" :: args =>
    let status := match args with
      | [] => w.parameters.status
      | n :: _ => Text.leadingNatural n.toList % 256
    { work := { (w.withStatus status) with frames := unwound w.frames }, around := s }
  | "trap" :: action :: names =>
    let arranged := (names.filterMap Signal.ofName?).map (·, trapDisposition action)
    { work := w.withStatus 0, around := s, arranged }
  | "exec" :: name :: args =>
    ({ w with frames := unwound w.frames } : Work).runNamed s line name args
  | "true" :: _ => { work := w.withStatus 0, around := s }
  | "false" :: _ => { work := w.withStatus 1, around := s }
  | "kill" :: args => w.perform s .kill (Program.kill.run { args, stdin := .ok [], files := s.files })
  | "printf" :: args =>
    w.perform s .printf (Program.printf.run { args, stdin := .ok [], files := s.files })
  | name :: args => w.runNamed s line name args

/-- Runs a simple command of a script. -/
def simple (w : Work) (s : Surroundings) (line : Nat) (words : List Word)
    (redirects : List Redirect) : Turn :=
  let (parameters, words) := assign w.parameters words
  let w := { w with parameters }
  match redirectAll parameters w.streams s redirects with
  | .error e => w.complain s 2 (w.scriptTag line ++ e)
  | .ok (streams, s) =>
    let w := if redirects.isEmpty then w else { w.push (.restore w.streams) with streams }
    w.command s line (Script.expand parameters words)

/-! ## 4. One piece -/

/-- Begins a part of a script. -/
def begin (w : Work) (s : Surroundings) : Script → Turn
  | .nothing => { work := w, around := s }
  | .sequence a b => { work := (w.push (.run b)).push (.run a), around := s }
  | .onSuccess a b => { work := (w.push (.runIf true b)).push (.run a), around := s }
  | .onFailure a b => { work := (w.push (.runIf false b)).push (.run a), around := s }
  | .loop whileSuccess test body =>
    { work := (w.push (.again whileSuccess test body)).push (.run test), around := s }
  | .choose test yes no => { work := (w.push (.branch yes no)).push (.run test), around := s }
  | .simple line words redirects => w.simple s line words redirects

/-- Does the first piece of work. -/
def turn (w : Work) (s : Surroundings) : Turn :=
  match w.frames with
  | [] => { work := w, around := s, ends := some w.parameters.status }
  | f :: rest =>
    let w := { w with frames := rest, wakeAt := none, turns := w.turns + 1 }
    let succeeded := w.parameters.status == 0
    match f with
    | .run script => w.begin s script
    | .runIf success script =>
      { work := if succeeded == success then w.push (.run script) else w, around := s }
    | .branch yes no =>
      { work := w.push (.run (if succeeded then yes else no)), around := s }
    | .again whileSuccess test body =>
      { around := s
        work :=
          if succeeded == whileSuccess then
            ((w.push (.again whileSuccess test body)).push (.run test)).push (.run body)
          else w.withStatus 0 }
    | .call image => w.call s image
    | .restore streams => { work := { w with streams }, around := s }
    | .leave p streams =>
      { around := s
        work := { w with streams, parameters := { p with status := w.parameters.status } } }

/-- How many pieces of work are done at a time. -/
def quota : Nat := 1000

/-- Something can be done at a time. -/
def isReady (w : Work) (clock : Nat) : Bool :=
  w.turns < quota && match w.wakeAt with
    | none => true
    | some t => t ≤ clock

end Work

end JobShell
