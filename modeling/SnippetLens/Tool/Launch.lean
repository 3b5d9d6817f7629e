import SnippetLens.Files.Access
import SnippetLens.Text.Octets
import SnippetLens.Toolchain.Environment

/-!
What starting a program starts. The only program is the interpreter of scripts; a script names it
in its first line and becomes an argument of it.
-/

namespace SnippetLens.Tool

open Files Toolchain

/-- A start of the interpreter: what it is called, and its arguments. -/
structure Launch where
  name : String
  arguments : List String
  deriving DecidableEq, Repr

namespace Launch

def usualSearchPath : String := "/bin:/usr/bin"

def maxNesting : Nat := 4

/-- The interpreter that the first line of a script names, and an argument that follows it. -/
def interpreterLine? (content : List Char) : Option (String × List String) :=
  match content with
  | '#' :: '!' :: rest =>
    let isSpace := fun (c : Char) => c = ' ' || c = '\t'
    let line := (rest.takeWhile (· ≠ '\n')).dropWhile isSpace
    let line := (line.reverse.dropWhile isSpace).reverse
    let name := line.takeWhile fun c => !isSpace c
    let argument := (line.drop name.length).dropWhile isSpace
    if name.isEmpty then none
    else some (Text.Octets.toText name,
      if argument.isEmpty then [] else [Text.Octets.toText argument])
  | _ => none

/-- What starting the program at a path starts, through as many scripts as the number says. -/
def atPath (files : FileTree) (arguments : List String) (name : String) (p : FilePath) :
    Nat → Except Failure Launch
  | 0 => .error .tooManyLinks
  | n + 1 => do
    match ← files.status p with
    | .interpreter => return ⟨name, arguments⟩
    | .file content true =>
      match interpreterLine? (Text.Octets.ofBytes content) with
      | none => .error .notExecutable
      | some (interpreter, options) =>
        atPath files (options ++ p.text :: arguments) interpreter ⟨interpreter⟩ n
    | .file _ false | .directory | .nullDevice | .link _ => .error .denied

/-- The start in the first directory in which there is one. A place that was refused decides only
if no later one is found. -/
def search (files : FileTree) (arguments : List String) (name : String) (refused : Bool) :
    List FilePath → Except Failure Launch
  | [] => .error (if refused then .denied else .notFound)
  | dir :: dirs =>
    let p := dir / name
    match atPath files arguments p.text p (maxNesting + 1) with
    | .error .notFound | .error .notDirectory => search files arguments name refused dirs
    | .error .denied => search files arguments name true dirs
    | result => result

/-- What starting a program starts. A name without a slash is looked for in the directories of the
search path. -/
def ofProgram (files : FileTree) (searchPath : Option String) (program : String)
    (arguments : List String) : Except Failure Launch :=
  if program.toList.contains '/' then atPath files arguments program ⟨program⟩ (maxNesting + 1)
  else if program.isEmpty then .error .notFound
  else
    let entries := Environment.splitColons (searchPath.getD usualSearchPath).toList
    let found := search files arguments program false (entries.map fun e => ⟨String.ofList e⟩)
    found.map fun l => if l.arguments = arguments then { l with name := program } else l

end Launch

end SnippetLens.Tool
