import SnippetLens.Build.Command
import SnippetLens.Files.Access

/-!
The files that a build itself reads and writes in its scratch directory.
-/

namespace SnippetLens.Build

open Files

structure WorkspaceError where
  path : FilePath
  cause : Failure
  deriving DecidableEq, Repr

def WorkspaceError.message (e : WorkspaceError) : String :=
  "IO error on " ++ e.path.text ++ ": " ++ e.cause.message

def onPath (p : FilePath) (result : Except Failure α) : Except WorkspaceError α :=
  result.mapError fun cause => ⟨p, cause⟩

@[simp] theorem onPath_ok (p : FilePath) (a : α) : onPath p (.ok a) = .ok a := rfl

/-- The rules for the optimizer. What would make the listing unlike the source stays off, and all
methods outside the Kotlin runtime are kept. -/
def optimizerRules : String :=
  "-optimizations !code/simplification/arithmetic,!code/simplification/cast,!field/*," ++
    "!class/merging/*\n" ++
    "-optimizationpasses 5\n" ++
    "-dontpreverify\n" ++
    "-dontobfuscate\n" ++
    "-keep,allowoptimization class !kotlin.**,!kotlinx.** \x7b\n" ++
    "  <methods>;\n" ++
    "\x7d\n"

/-- Whether a name has the extension of class files. A name that is nothing else has none. -/
def hasClassExtension (name : String) : Bool :=
  ".class".toList.isSuffixOf name.toList && ".class" ≠ name

/-- The class files in a directory, sorted. Directories are passed over, and links are followed. -/
def classFiles (files : FileTree) (dir : FilePath) : Except WorkspaceError (List String) := do
  let names ← onPath dir (files.list dir)
  let classes := names.filter fun name => hasClassExtension name && files.isFile (dir / name)
  return classes.mergeSort fun a b => a ≤ b

def removeEach (files : FileTree) (dir : FilePath) (names : List String) :
    Except WorkspaceError FileTree :=
  names.foldlM (fun files name => onPath (dir / name) (files.remove (dir / name))) files

def cleanClassFiles (files : FileTree) (dir : FilePath) :
    Except WorkspaceError (Nat × FileTree) := do
  let classes ← classFiles files dir
  return (classes.length, ← removeEach files dir classes)

def writeSource (files : FileTree) (dir : FilePath) (source : String) :
    Except WorkspaceError (FilePath × FileTree) := do
  let path := dir / sourceFile
  return (path, ← onPath path (files.writeText path source))

def writeRules (files : FileTree) (dir : FilePath) :
    Except WorkspaceError (FilePath × FileTree) := do
  let path := dir / rulesFile
  return (path, ← onPath path (files.writeText path optimizerRules))

end SnippetLens.Build
