import SnippetLens.Build.Explorer
import SnippetLens.Cli.Invocation
import SnippetLens.Config.Load

/-!
Which parts of the disk a command line looks at.

What a command needs depends on what it has found: the configuration names the directories of the
toolchain, and these hold the locations of the tools. So the reach of a command is a function of the
part of the disk that is known, and grows with it. After three rounds everything is known that the
command itself looks at; what a tool looks at on its own is not part of it.
-/

namespace SnippetLens.Cli

open Files Toolchain Config Build

/-- A part of the disk: what is at a path, and what is below it, to a depth. -/
structure Reach where
  path : FilePath
  depth : Nat := 0
  deriving DecidableEq, Repr

namespace Invocation

/-- The rounds after which the reach does not grow any more: the configuration, the directories of
the toolchain, and the tools. -/
def rounds : Nat := 3

def settingsReach (i : Invocation) (env : Environment) (here : FilePath) : List Reach :=
  match i.config with
  | some p => [⟨p, 0⟩]
  | none =>
    (here.ancestors.map fun dir => ⟨dir / settingsDirectory / settingsFile, 0⟩) ++
      (userSettings? env).toList.map fun p => ⟨p, 0⟩

def toolchainDirectories (env : Environment) (files : FileTree) (h : Hints) : List FilePath :=
  let named := ["ANDROID_HOME", "ANDROID_SDK_ROOT", "KOTLIN_HOME", "JAVA_HOME"].filterMap env.get?
  [h.androidHome, h.kotlinHome, h.javaHome, kotlinOnPath? env files].filterMap id ++
    named.map FilePath.mk

def directoryReach (dir : FilePath) : List Reach :=
  [⟨dir, 0⟩, ⟨dir / "build-tools", 1⟩, ⟨dir / "platforms", 1⟩, ⟨dir / "bin" / "java", 0⟩] ++
    Locations.runtimeJarNames.map fun name => ⟨dir / "lib" / name, 0⟩

def searchReach (env : Environment) : List Reach :=
  (Environment.splitColons ((env.get? "PATH").getD "").toList).flatMap fun entry =>
    ["kotlinc", "java"].map fun name => ⟨env.searchDirectory entry / name, 0⟩

def scratchDepth : Nat := 16

def toolchainReach (i : Invocation) (env : Environment) (files : FileTree)
    (scratch : Option FilePath) : List Reach :=
  match load env files i.config with
  | .error _ => []
  | .ok s =>
    let dirs := (toolchainDirectories env files s.toolchain).flatMap directoryReach
    let tools := match Plan.ofSettings env files s scratch with
      | (.error _, _) => []
      | (.ok plan, _) => plan.locations.labelled.map fun entry => ⟨entry.2, 0⟩
    dirs ++ searchReach env ++ tools ++
      (scratch.or s.build.scratch).toList.map fun p => ⟨p, scratchDepth⟩

/-- What the command looks at, as far as the known part of the disk tells. -/
def reach (i : Invocation) (env : Environment) (here : FilePath) (files : FileTree) : List Reach :=
  match i.request with
  | .version => []
  | .filter request => i.settingsReach env here ++ [⟨request.input, 0⟩]
  | .doctor => i.settingsReach env here ++ i.toolchainReach env files none
  | .build request =>
    let targets := [request.bytecodeOut, request.nativeOut].filterMap id
    let above := targets.filterMap FilePath.parent?
    i.settingsReach env here ++ i.toolchainReach env files request.scratch ++
      (request.input :: above ++ targets).map fun p => ⟨p, 0⟩

def readsInput (i : Invocation) : Bool :=
  match i.request with
  | .filter request => request.input.text = "-"
  | _ => false

end Invocation

end SnippetLens.Cli
