import JobShell.Text.Decimal
import JobShell.Text.Pieces
import JobShell.Text.Utf8

/-!
# Files

The part of a file system that commands meet: directories, regular files with their permissions,
a few devices, and the programs of the system.

* `Reason` lists why the system refuses, with the text it gives for each.
* `FileTree` is the file system, with the directory that relative paths start from. Its `Rules` are
  what else decides about an access: where links lead, what the user may do, and how much a file can
  hold. Nothing is asked of them; without any, the user is the one who may do everything.
* `FileTree.place` follows a path; `openInput` and `openOutput` open a file for a redirection.
* `FileTree.regularFiles` lists the regular files below the working directory.

NOT here: owners and times, and links that come and go. Running a file needs an execute permission
on it, whoever the user is.
-/

namespace JobShell

open Text (width)

/-! ## 1. Refusals -/

/-- Why the system refuses. -/
inductive Reason where
  | noEntry
  | noProcess
  | denied
  | notDirectory
  | isDirectory
  | invalidArgument
  | noSpace
  | nameTooLong
  | tooManyLevels
  | tryAgain
  /-- Any other reason, with its number, its short name and its text. -/
  | other (number : Nat) (code text : String)
  deriving DecidableEq, Repr

namespace Reason

/-- The text of a refusal. -/
def text : Reason → String
  | noEntry => "No such file or directory"
  | noProcess => "No such process"
  | denied => "Permission denied"
  | notDirectory => "Not a directory"
  | isDirectory => "Is a directory"
  | invalidArgument => "Invalid argument"
  | noSpace => "No space left on device"
  | nameTooLong => "File name too long"
  | tooManyLevels => "Too many symbolic links encountered"
  | tryAgain => "Try again"
  | other _ _ text => text

/-- The number of a refusal. -/
def number : Reason → Nat
  | noEntry => 2
  | noProcess => 3
  | denied => 13
  | notDirectory => 20
  | isDirectory => 21
  | invalidArgument => 22
  | noSpace => 28
  | nameTooLong => 36
  | tooManyLevels => 40
  | tryAgain => 11
  | other number _ _ => number

/-- The short name of a refusal. -/
def code : Reason → String
  | noEntry => "ENOENT"
  | noProcess => "ESRCH"
  | denied => "EACCES"
  | notDirectory => "ENOTDIR"
  | isDirectory => "EISDIR"
  | invalidArgument => "EINVAL"
  | noSpace => "ENOSPC"
  | nameTooLong => "ENAMETOOLONG"
  | tooManyLevels => "ELOOP"
  | tryAgain => "EAGAIN"
  | other _ code _ => code

/-- A refusal with its short name in front. -/
def coded (r : Reason) : String := r.code ++ ": " ++ r.text

/-- A refusal with its number behind. -/
def numbered (r : Reason) : String := r.text ++ " (os error " ++ Text.natural r.number ++ ")"

end Reason

/-! ## 2. The tree -/

/-- A place: the names on the way from the root, outermost first. -/
abbrev Place := List String

inductive Device where
  /-- Nothing to read; takes everything. -/
  | null
  /-- Nothing to read; takes nothing. -/
  | full
  deriving DecidableEq, Repr

/-- What stands at a place. -/
inductive Node where
  | directory
  | regular (mode : Nat) (content : List UInt8)
  | device (d : Device)
  | program (name : String)
  deriving DecidableEq, Repr

/-- What somebody wants to do with what stands at a place. -/
inductive Access where
  /-- To follow a name from a directory. -/
  | search
  | read
  | write
  /-- To make or remove an entry of a directory. -/
  | change
  | run
  deriving DecidableEq, Repr

/-- What decides about an access besides what stands where. -/
structure Rules where
  /-- Where the links at a place lead in the end, or why they lead nowhere. -/
  follow : Place → Except Reason Place := .ok
  /-- Why an access to a node at a place is refused, if it is. -/
  refuses? : Access → Place → Node → Option Reason := fun _ _ _ => none
  /-- How many bytes a file at a place can hold, if that is limited. -/
  room? : Place → Option Nat := fun _ => none

/-- A file system. The root is a directory that is not listed. -/
structure FileTree where
  nodes : List (Place × Node)
  /-- Where relative paths start. -/
  workDir : Place
  rules : Rules := {}

namespace FileTree

def node? (t : FileTree) (p : Place) : Option Node :=
  if p.isEmpty then some .directory else (t.nodes.find? (·.1 == p)).map (·.2)

/-- Puts a node at a place. -/
def setNode (t : FileTree) (p : Place) (n : Node) : FileTree :=
  if t.nodes.any (·.1 == p) then
    { t with nodes := t.nodes.map fun e => if e.1 == p then (p, n) else e }
  else { t with nodes := t.nodes ++ [(p, n)] }

/-- Takes away the node at a place. -/
def eraseNode (t : FileTree) (p : Place) : FileTree :=
  { t with nodes := t.nodes.filter (·.1 != p) }

/-- Whether a directory stands at a place. -/
def isDirectory (t : FileTree) (p : Place) : Bool := t.node? p == some .directory

/-- Why an access to what stands at a place is refused, if it is. -/
def refusal? (t : FileTree) (a : Access) (p : Place) : Option Reason :=
  (t.node? p).bind (t.rules.refuses? a p)

/-- Nothing, unless there is a refusal. -/
def unlessRefused (refusal? : Option Reason) (r : Except Reason α) : Except Reason α :=
  match refusal? with
  | some reason => .error reason
  | none => r

/-! ## 3. Paths -/

/-- The longest name, in bytes. -/
def nameLimit : Nat := 255

/-- The longest path, in bytes. -/
def pathLimit : Nat := 4095

/-- The permissions of a new file: read and write for the owner, read for all others. -/
def newFileMode : Nat := 0o644

/-- The names of a path; a slash at the start or the end gives an empty name. -/
def names (path : String) : List String := (Text.pieces '/' path.toList).map String.ofList

/-- What is wrong with a path whatever the file system holds. -/
def pathFault? (path : String) : Option Reason :=
  if path.toList.contains '\x00' then some .invalidArgument
  else if path.isEmpty then some .noEntry
  else if width path.toList > pathLimit then some .nameTooLong
  else none

/-- The place that a name leads to. Every name, even an empty one, needs a directory to stand in. -/
def next (t : FileTree) (p : Place) (name : String) : Except Reason Place :=
  if !t.isDirectory p then .error .notDirectory
  else if name = "" then .ok p
  else unlessRefused (t.refusal? .search p) <|
    if name = "." then .ok p
    else if name = ".." then .ok p.dropLast
    else if width name.toList > nameLimit then .error .nameTooLong
    else match t.rules.follow (p ++ [name]) with
      | .error r => .error r
      | .ok q => if (t.node? q).isNone then .error .noEntry else .ok q

/-- Follows names from a place. -/
def walk (t : FileTree) (p : Place) : List String → Except Reason Place
  | [] => .ok p
  | name :: rest =>
    match t.next p name with
    | .error r => .error r
    | .ok q => walk t q rest

/-- Where the names of a path start from. -/
def start (t : FileTree) (path : String) : Place :=
  if path.toList.head? = some '/' then [] else t.workDir

/-- The place that a path leads to. -/
def place (t : FileTree) (path : String) : Except Reason Place :=
  match pathFault? path with
  | some r => .error r
  | none => t.walk (t.start path) (names path)

/-- The node that a path leads to. -/
def lookup (t : FileTree) (path : String) : Except Reason Node :=
  match t.place path with
  | .error r => .error r
  | .ok p =>
    match t.node? p with
    | some n => .ok n
    | none => .error .noEntry

/-! ## 4. Opening -/

/-- Opens a file for reading; a directory can be opened too. -/
def openInput (t : FileTree) (path : String) : Except Reason Place :=
  match t.place path with
  | .error r => .error r
  | .ok p => unlessRefused (t.refusal? .read p) (.ok p)

/-- The permissions of a file that stands where a program of the system stood. -/
def programMode : Nat := 0o755

/-- Opens the file at a place for writing: it is emptied, or made in the directory that is there for
it. -/
def openAt (t : FileTree) (p : Place) : Except Reason (FileTree × Place) :=
  match t.node? p with
  | none =>
    -- only a link can lead to where there is no directory
    if !t.isDirectory p.dropLast then .error .noEntry
    else unlessRefused (t.refusal? .change p.dropLast)
      (.ok (t.setNode p (.regular newFileMode []), p))
  | some .directory => .error .isDirectory
  | some (.regular mode _) =>
    unlessRefused (t.refusal? .write p) (.ok (t.setNode p (.regular mode []), p))
  | some (.program _) =>
    unlessRefused (t.refusal? .write p) (.ok (t.setNode p (.regular programMode []), p))
  | some (.device _) => unlessRefused (t.refusal? .write p) (.ok (t, p))

/-- Opens the file `name` of the directory `dir` for writing. -/
def openEntry (t : FileTree) (dir : Place) (name : String) : Except Reason (FileTree × Place) :=
  unlessRefused (t.refusal? .search dir) <|
    if width name.toList > nameLimit then .error .nameTooLong
    else match t.rules.follow (dir ++ [name]) with
      | .error r => .error r
      | .ok p => t.openAt p

/-- Opens a file for writing. A path that ends in a slash or in `.` or `..` can only name a
directory. -/
def openOutput (t : FileTree) (path : String) : Except Reason (FileTree × Place) :=
  match pathFault? path with
  | some r => .error r
  | none =>
    let all := names path
    let last := all.getLastD ""
    let dirs := if last = "" then (all.reverse.dropWhile (· = "")).tail.reverse else all.dropLast
    if last = "." ∨ last = ".." then
      match t.walk (t.start path) all with
      | .ok _ => .error .isDirectory
      | .error r => .error r
    else match t.walk (t.start path) (dirs ++ [""]) with
      | .error r => .error r
      | .ok dir => if last = "" then .error .isDirectory else t.openEntry dir last

/-- What a file that holds `size` bytes takes of others that are written. -/
def taken (t : FileTree) (p : Place) (size : Nat) (bs : List UInt8) : List UInt8 :=
  match t.rules.room? p with
  | some room => bs.take (room - size)
  | none => bs

/-- Writes at the end of an open file, as much as it can hold, and tells whether all bytes were
taken. -/
def append (t : FileTree) (p : Place) (bs : List UInt8) : FileTree × Bool :=
  match t.node? p with
  | some (.regular mode content) =>
    let taken := t.taken p content.length bs
    (t.setNode p (.regular mode (content ++ taken)), taken.length == bs.length)
  | some (.device .full) => (t, bs.isEmpty)
  | _ => (t, true)

/-- What there is to read in an open file. -/
def readAll (t : FileTree) (p : Place) : Except Reason (List UInt8) :=
  match t.node? p with
  | some (.regular _ content) => .ok content
  | some .directory => .error .isDirectory
  | _ => .ok []

/-! ## 5. Listings -/

/-- The names in a directory, with their nodes. -/
def entries (t : FileTree) (dir : Place) : List (String × Node) :=
  t.nodes.filterMap fun (p, n) =>
    if p.length = dir.length + 1 ∧ p.dropLast = dir then p.getLast?.map (·, n) else none

/-- A place below the working directory, as a path from there. -/
def relative? (t : FileTree) (p : Place) : Option String :=
  if t.workDir.isPrefixOf p then
    some ("/".intercalate (p.drop t.workDir.length))
  else none

/-- The regular files below the working directory, by path: permissions and content. -/
def regularFiles (t : FileTree) : List (String × Nat × List UInt8) :=
  (t.nodes.filterMap fun (p, n) =>
    match t.relative? p, n with
    | some path, .regular mode content => some (path, mode, content)
    | _, _ => none).mergeSort fun a b => a.1 ≤ b.1

/-! ## 6. Setting up -/

/-- A file system that holds nothing. -/
def empty : FileTree := { nodes := [], workDir := [] }

/-- Makes every directory on the way to a place below another. -/
def withDirectories (t : FileTree) (p : Place) : List String → FileTree
  | [] => t
  | name :: rest =>
    let q := p ++ [name]
    let t' := if (t.node? q).isSome then t else t.setNode q .directory
    withDirectories t' q rest

/-- The file system with one more directory below the working directory. -/
def withDirectory (t : FileTree) (path : String) : FileTree :=
  t.withDirectories t.workDir ((names path).filter (· ≠ ""))

/-- The file system with one more regular file below the working directory. -/
def withFile (t : FileTree) (path : String) (mode : Nat) (content : List UInt8) : FileTree :=
  let all := (names path).filter (· ≠ "")
  (t.withDirectories t.workDir all.dropLast).setNode (t.workDir ++ all) (.regular mode content)

end FileTree

end JobShell
