import SnippetLens.Config.Decode
import SnippetLens.Config.Toml.Document
import SnippetLens.Toolchain.Directories

/-!
Loading the configuration. The configuration of the project goes before that of the user.
-/

namespace SnippetLens.Config

open Files Toolchain

inductive ConfigError where
  | read (cause : Failure)
  /-- The document is not TOML. -/
  | malformed
  | mismatch (m : Mismatch)
  /-- There is no home directory to look for a configuration in. -/
  | homeless
  deriving Repr

def ConfigError.message : ConfigError → String
  | .read cause => "IO failure when reading config: " ++ cause.message
  | .malformed => "Failed to parse TOML config: invalid document"
  | .mismatch m => "Failed to parse TOML config: " ++ m.message
  | .homeless => "Unable to determine home directory for default config path"

def Settings.ofText (document : String) : Except ConfigError Settings :=
  match Toml.parse? document with
  | none => .error .malformed
  | some entries => (Settings.ofTable entries).mapError .mismatch

def Settings.ofFile (files : FileTree) (p : FilePath) : Except ConfigError Settings :=
  match files.readText p with
  | .error cause => .error (.read cause)
  | .ok document => Settings.ofText document

def userPath (env : Environment) : Except ConfigError FilePath :=
  match userSettings? env with
  | some p => .ok p
  | none => .error .homeless

def loadUser (env : Environment) (files : FileTree) : Except ConfigError Settings := do
  Settings.ofFile files (← userPath env)

/-- The configuration for the working directory: that of the project, if it has one, or that of
the user. -/
def loadScoped (env : Environment) (files : FileTree) : Except ConfigError Settings :=
  match files.workingDirectory with
  | .error cause => .error (.read cause)
  | .ok here =>
    match projectSettings? files here with
    | some p => Settings.ofFile files p
    | none => loadUser env files

/-- The configuration of a command. A file that is asked for must be there; otherwise the
defaults stand in for a configuration that does not exist. -/
def load (env : Environment) (files : FileTree) (explicit : Option FilePath) :
    Except ConfigError Settings :=
  match explicit with
  | some p => Settings.ofFile files p
  | none =>
    match loadScoped env files with
    | .error (.read .notFound) | .error .homeless => .ok {}
    | result => result

end SnippetLens.Config
