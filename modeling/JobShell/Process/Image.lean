import JobShell.Process.Program
import JobShell.Text.Pieces

/-!
# Finding programs

What is run for the name of a program.

* `Image` is a program of the system with its arguments: a file that is a script is run by its
  interpreter, which gets the path of the file as an argument.
* `FileTree.imageAt` finds the program of a path, `FileTree.image` the one of a name. A name without
  a slash is looked for in the directories of `searchPath`.
-/

namespace JobShell

/-- A program with its arguments. -/
structure Image where
  program : Program
  args : List String
  deriving DecidableEq, Repr

/-- The directories in which programs are looked for. -/
def searchPath : List String := ["/usr/local/bin", "/usr/bin", "/bin"]

/-- The program that runs a file without a line that names one. -/
def defaultInterpreter : Program := .sh

/-- How many interpreters may be scripts themselves. -/
def interpreterDepth : Nat := 5

/-- A file with this permission for somebody can be run. -/
def isExecutable (mode : Nat) : Bool := mode &&& 0o111 != 0

/-- A blank inside the first line of a script. -/
def isGap (c : Char) : Bool := c = ' ' || c = '\t'

/-- The interpreter that the first line of a script names, and an argument for it. -/
def interpreter? (content : List UInt8) : Option (String × List String) :=
  match content with
  | 0x23 :: 0x21 :: rest =>
    let line := (rest.takeWhile (· ≠ 10)).map fun b => Char.ofNat b.toNat
    let named := line.dropWhile isGap
    let path := named.takeWhile (!isGap ·)
    let rest := (named.dropWhile (!isGap ·)).dropWhile isGap
    let arg := (rest.reverse.dropWhile isGap).reverse
    if path.isEmpty then none
    else some (String.ofList path, if arg.isEmpty then [] else [String.ofList arg])
  | _ => none

namespace FileTree

/-- What is run for the file at a path. -/
def imageAt (t : FileTree) : (depth : Nat) → (path : String) → List String → Except Reason Image
  | 0, _, _ => .error .tooManyLevels
  | n + 1, path, args =>
    match t.place path with
    | .error r => .error r
    | .ok p =>
      unlessRefused (t.refusal? .run p) <|
        match t.node? p with
        | some (.program name) =>
          match Program.ofName? name with
          | some p => .ok ⟨p, args⟩
          | none => .error .denied
        | some (.regular mode content) =>
          if !isExecutable mode then .error .denied
          else match interpreter? content with
            | some (path', arg) => imageAt t n path' (arg ++ path :: args)
            | none => .ok ⟨defaultInterpreter, path :: args⟩
        | _ => .error .denied

/-- Looks for a program in directories. One that is found but cannot be run counts only if no other
directory has a better one. -/
def search (t : FileTree) (name : String) (args : List String) (fault : Reason) :
    List String → Except Reason Image
  | [] => .error fault
  | dir :: rest =>
    match t.imageAt interpreterDepth (dir ++ "/" ++ name) args with
    | .ok image => .ok image
    | .error .denied => search t name args .denied rest
    | .error _ => search t name args fault rest

/-- What is run for the name of a program. -/
def image (t : FileTree) (name : String) (args : List String) : Except Reason Image :=
  if name.isEmpty then .error .noEntry
  else if name.toList.contains '/' then t.imageAt interpreterDepth name args
  else if Text.width name.toList > nameLimit then .error .nameTooLong
  else t.search name args .noEntry searchPath

/-- The file system with its programs installed and a directory to work in. -/
def installed (workDir : Place) : FileTree :=
  let base : FileTree :=
    { workDir, nodes := [(["dev"], .directory), (["dev", "null"], .device .null),
        (["dev", "full"], .device .full), (["bin"], .directory), (["usr"], .directory),
        (["usr", "bin"], .directory), (["usr", "local"], .directory),
        (["usr", "local", "bin"], .directory)] }
  let t := Program.all.foldl (fun t p =>
    (t.setNode ["bin", p.name] (.program p.name)).setNode ["usr", "bin", p.name]
      (.program p.name)) base
  t.withDirectories [] workDir

end FileTree

end JobShell
