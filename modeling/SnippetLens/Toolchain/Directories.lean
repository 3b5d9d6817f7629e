import SnippetLens.Files.Access
import SnippetLens.Toolchain.Environment

/-!
The directories of the program itself: its home, with the configuration of the user; the
configuration of a project, looked for in a directory and the ones above it; and the scratch
directory that builds work in.
-/

namespace SnippetLens.Toolchain

open Files

def settingsDirectory : String := ".kexp"

def settingsFile : String := "config.toml"

/-- The home of the program: the one that the environment names, or one in the home directory
of the user. -/
def programHome? (env : Environment) : Option FilePath :=
  match env.get? "KEXP_HOME" with
  | some home => some ⟨home⟩
  | none => env.userHome?.map (· / settingsDirectory)

def userSettings? (env : Environment) : Option FilePath :=
  (programHome? env).map (· / settingsFile)

/-- The configuration of the project that a directory belongs to: the nearest one in the
directory or above it. -/
def projectSettings? (files : FileTree) (start : FilePath) : Option FilePath :=
  (start.ancestors.map (· / settingsDirectory / settingsFile)).find? files.isFile

/-- Makes the scratch directory, an explicit one or one of this process, and tells its path
without links. -/
def scratchDirectory (env : Environment) (files : FileTree) (explicit : Option FilePath) :
    Except Failure (FilePath × FileTree) := do
  let dir := explicit.getD (env.temporaryDirectory / ("kexp-" ++ env.processId))
  let files ← files.makeDirectories dir
  return ((files.canonical dir).toOption.getD dir, files)

end SnippetLens.Toolchain
