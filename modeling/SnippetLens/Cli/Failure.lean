import SnippetLens.Build.Error
import SnippetLens.Config.Load

/-!
Why a command failed: the words for it, and the exit code, which tells programs the kind of failure.
-/

namespace SnippetLens.Cli

open Files Build Config

inductive CommandError where
  | inputMissing (path : FilePath)
  | output (path : FilePath) (cause : Failure)
  | config (e : ConfigError)
  | build (e : BuildError)
  /-- The tool of a stage failed; what it said was shown. -/
  | stageFailed (stage : Stage)
  | toolsMissing (count : Nat)
  | io (cause : Failure)
  deriving Repr

def CommandError.message : CommandError → String
  | .inputMissing path => "Input file not found: " ++ path.text
  | .output path cause =>
    "Failed to write output file '" ++ path.text ++ "': " ++ cause.message
  | .config e => "Configuration error: " ++ e.message
  | .build e => e.message
  | .stageFailed stage => "Build failed at stage '" ++ stage.name ++ "'"
  | .toolsMissing count => toString count ++ " required tool location(s) missing"
  | .io cause => "IO error: " ++ cause.message

def CommandError.exitCode : CommandError → Nat
  | .stageFailed _ => 1
  | .inputMissing _ => 66
  | .build (.discovery _) | .build (.missingTools _) | .toolsMissing _ => 69
  | .output .. => 73
  | .build (.io _) | .build (.workspace _) | .io _ => 74
  | .build .inProgress => 75
  | .config _ => 78

end SnippetLens.Cli
