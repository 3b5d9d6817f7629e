import SnippetLens.Build.Plan
import SnippetLens.Toolchain.Directories

/-!
The explorer: what takes requests for builds in one scratch directory and runs them one at a
time. A request made while a build is running is refused, and not kept for later.
-/

namespace SnippetLens.Build

open Files Toolchain

inductive Explorer where
  | idle (files : FileTree)
  | busy (build : Progress)

namespace Explorer

def files : Explorer → FileTree
  | idle files => files
  | busy build => build.files

def request (source : String) (channel : Channel) : Explorer → Except BuildError Explorer
  | idle files => .ok (busy (.start source files channel))
  | busy _ => .error .inProgress

/-- Takes back the explorer from a build that ended, and goes on with one that did not. A build
that waits for its tool stays as it is. -/
def step (plan : Plan) : Explorer → Explorer
  | idle files => idle files
  | busy build =>
    match build.phase with
    | .ended _ => idle build.files
    | _ => busy (plan.advance build)

def answer (plan : Plan) (result : ToolResult) (files : FileTree) : Explorer → Explorer
  | idle files => idle files
  | busy build => busy (plan.answer build result files)

end Explorer

/-- The plan for a configuration, and the file tree with the scratch directory made. An explicit
scratch directory goes before the one of the configuration. -/
def Plan.ofSettings (env : Environment) (files : FileTree) (s : Config.Settings)
    (scratch : Option FilePath) : Except BuildError Plan × FileTree :=
  match scratchDirectory env files (scratch.or s.build.scratch) with
  | .error cause => (.error (.io cause), files)
  | .ok (scratch, files) =>
    match discover env files s.toolchain scratch with
    | .error e => (.error (.discovery e), files)
    | .ok locations => (.ok ⟨locations, .ofSettings s⟩, files)

end SnippetLens.Build
