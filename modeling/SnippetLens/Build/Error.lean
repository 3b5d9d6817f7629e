import SnippetLens.Build.Stage
import SnippetLens.Build.Workspace
import SnippetLens.Toolchain.Discovery

/-!
How a build ends: completed, stopped at a stage, or with an error. A tool that fails is no error;
an error is something that the build itself could not do.
-/

namespace SnippetLens.Build

open Files Toolchain

inductive Outcome where
  /-- Every stage succeeded. -/
  | completed
  /-- The tool of this stage failed, and no later stage ran. -/
  | failed (stage : Stage)
  deriving DecidableEq, Repr

inductive BuildError where
  | io (cause : Failure)
  | workspace (e : WorkspaceError)
  | discovery (e : DiscoveryError)
  /-- Some locations lead to nothing. -/
  | missingTools (missing : List (String × FilePath))
  /-- Another build is running. -/
  | inProgress
  deriving DecidableEq, Repr

def BuildError.message : BuildError → String
  | .io cause => "IO error: " ++ cause.message
  | .workspace e => "Workspace error: " ++ e.message
  | .discovery e => "Tool discovery failed: " ++ e.message
  | .missingTools missing =>
    "Invalid tool paths, missing: " ++
      ", ".intercalate (missing.map fun entry => entry.1 ++ " (" ++ entry.2.text ++ ")")
  | .inProgress => "A build is already running in this scratch directory"

end SnippetLens.Build
