import SnippetLens.Cli.Reach
import SnippetLens.Cli.Run
import SnippetLens.Files.Change

/-!
The program. It loads the part of the disk that the command line looks at, runs the command line on
that, and then prints what was printed and makes the changes on the disk.

Tools are run by the interpreter of this library. A tool that is not a script does not start.
-/

namespace SnippetLens.Main

open Files Toolchain Cli

def architecture : String := "x86_64"

def variableNames : List String :=
  ["ANDROID_HOME", "ANDROID_SDK_ROOT", "KOTLIN_HOME", "JAVA_HOME", "KEXP_HOME", "HOME", "PATH",
    "TMPDIR"]

/-- The number of this process. Where the system does not tell it, the clock stands in for it. -/
def processId : IO String := do
  try return (← IO.FS.realPath "/proc/self").fileName.getD ""
  catch _ => return toString (← IO.monoNanosNow)

def surroundings : IO Environment := do
  let vars ← variableNames.filterMapM fun name => do
    return (← IO.getEnv name).map fun value => (name, value)
  return ⟨vars, none, ← processId⟩

/-- Everything that is left in a stream. -/
partial def drain (stream : IO.FS.Stream) (bytes : ByteArray) : IO ByteArray := do
  let chunk ← stream.read 65536
  if chunk.isEmpty then return bytes else drain stream (bytes ++ chunk)

/-- The tree with what the disk has at a path, and the names in it if that is a directory. Where
links lead elsewhere, one link stands for them. -/
def look (files : FileTree) (p : FilePath) : IO (FileTree × List String) := do
  try
    let place ← IO.FS.realPath p.text
    let real : FilePath := ⟨place.toString⟩
    let files := if real = p then files else files.graft p (.link real)
    if ← place.isDir then
      return (files.graft real .directory, (← place.readDir).toList.map (·.fileName))
    else return (files.graft real (.file (← IO.FS.readBinFile place).toList true), [])
  catch _ => return (files, [])

def explore : Nat → FileTree → FilePath → IO FileTree
  | 0, files, p => return (← look files p).1
  | depth + 1, files, p => do
    let (files, names) ← look files p
    names.foldlM (fun files name => explore depth files (p / name)) files

def gather (env : Environment) (i : Invocation) : IO FileTree := do
  let here : FilePath := ⟨(← IO.currentDir).toString⟩
  let start : FileTree := ⟨[], []⟩
  let start := (start.graft ⟨"/bin/sh"⟩ .interpreter).graft ⟨"/dev/null"⟩ .nullDevice
  let start := start.graft here .directory
  let start := { start with here := (start.locate here).toOption.getD [] }
  (List.range Invocation.rounds).foldlM (fun files _ =>
    (i.reach env here files).foldlM (fun files part =>
      explore part.depth files (here / part.path.text)) files) start

def apply : Change → IO Unit
  | .removed place => do
    try IO.FS.removeFile place.path.text catch _ => IO.FS.removeDirAll place.path.text
  | .madeDirectory place => IO.FS.createDirAll place.path.text
  | .wroteFile place content =>
    IO.FS.writeBinFile place.path.text ⟨content.toArray⟩

end SnippetLens.Main

open SnippetLens Cli in
def main (arguments : List String) : IO UInt32 := do
  let env ← Main.surroundings
  let (files, input) ← match asked arguments with
    | .run i => do
      let input ← if i.readsInput then Main.drain (← IO.getStdin) .empty else pure .empty
      pure (← Main.gather env i, input)
    | _ => pure (⟨[], []⟩, .empty)
  let (code, desk) := Cli.run env Main.architecture arguments (.ofBytes input.toList) files
  (files.changesTo desk.files).forM Main.apply
  (← IO.getStdout).putStr desk.output
  (← IO.getStderr).putStr desk.errors
  return UInt32.ofNat code
