import SnippetLens.Toolchain.Environment
import SnippetLens.Toolchain.Locations
import SnippetLens.Toolchain.Version

/-!
Finding the toolchain. A location comes from the hints of the configuration first, then from
the environment, then from the search path. Of several installed versions the greatest is taken,
unless one is pinned.
-/

namespace SnippetLens.Toolchain

open Files

/-- What the configuration says about the toolchain. -/
structure Hints where
  androidHome : Option FilePath := none
  kotlinHome : Option FilePath := none
  javaHome : Option FilePath := none
  /-- The pinned version of the build tools. -/
  buildTools : Option String := none
  /-- The pinned directory of the platform. -/
  platform : Option String := none
  deriving DecidableEq, Repr

inductive DiscoveryError where
  | androidMissing
  | kotlinMissing
  /-- No version of a kind is installed in a directory. -/
  | noVersion (kind : String) (dir : FilePath)
  | scan (dir : FilePath) (cause : Failure)
  deriving DecidableEq, Repr

def DiscoveryError.message : DiscoveryError → String
  | .androidMissing =>
    "Android SDK not found. Set ANDROID_HOME (or ANDROID_SDK_ROOT) or " ++
      "`[toolchain] android_home`"
  | .kotlinMissing =>
    "Kotlin compiler not found. Set KOTLIN_HOME, put kotlinc on PATH, or set " ++
      "`[toolchain] kotlin_home`"
  | .noVersion kind dir => "No " ++ kind ++ " installed under " ++ dir.text
  | .scan dir cause => "IO error while scanning " ++ dir.text ++ ": " ++ cause.message

/-- The version that an entry of a directory is: an entry that is itself a directory and whose name
`versionOf` accepts, with the key of its version. -/
def installedVersion? (files : FileTree) (root : FilePath) (versionOf : String → Option String)
    (name : String) : Option (VersionKey × FilePath) :=
  if files.isDirectory (root / name) then
    (versionOf name).map fun version => (VersionKey.ofName version, root / name)
  else none

/-- The versions among the entries of a directory. An entry that could not be read, or whose name is
no text, has no name here. -/
def versionsAmong (files : FileTree) (root : FilePath) (versionOf : String → Option String)
    (entries : List (Option String)) : List (VersionKey × FilePath) :=
  entries.filterMap fun entry => entry.bind (installedVersion? files root versionOf)

/-- The directory of the greatest version in a directory, from what the system hands out when the
directory is listed. -/
def latestAmong (files : FileTree) (root : FilePath) (kind : String)
    (versionOf : String → Option String) (listing : Except Failure (List (Option String))) :
    Except DiscoveryError FilePath :=
  if files.isDirectory root then
    match listing with
    | .error cause => .error (.scan root cause)
    | .ok entries =>
      match greatest? (·.1) (versionsAmong files root versionOf entries) with
      | some entry => .ok entry.2
      | none => .error (.noVersion kind root)
  else .error (.noVersion kind root)

def latestVersion (files : FileTree) (root : FilePath) (kind : String)
    (versionOf : String → Option String) : Except DiscoveryError FilePath :=
  latestAmong files root kind versionOf ((files.list root).map fun names => names.map some)

def platformVersion? (name : String) : Option String :=
  (Text.after? "android-".toList name.toList).map String.ofList

/-- The Kotlin distribution whose compiler is on the search path: two directories above the
compiler, links followed. -/
def kotlinOnPath? (env : Environment) (files : FileTree) : Option FilePath := do
  let kotlinc ← env.findProgram? files "kotlinc"
  let kotlinc := (files.canonical kotlinc).toOption.getD kotlinc
  (← kotlinc.parent?).parent?

/-- The program that runs Java programs: the one of the given or the environment's
distribution, the one on the search path, or the one that the system finds by its name. -/
def findJava (env : Environment) (files : FileTree) (hint : Option FilePath) : FilePath :=
  let home := hint.or (env.firstDirectory? files ["JAVA_HOME"])
  let program := (home.map (· / "bin" / "java")).filter files.isFile
  (program.or (env.findProgram? files "java")).getD ⟨"java"⟩

def discover (env : Environment) (files : FileTree) (hints : Hints) (scratch : FilePath) :
    Except DiscoveryError Locations := do
  let some androidHome :=
      hints.androidHome.or (env.firstDirectory? files ["ANDROID_HOME", "ANDROID_SDK_ROOT"])
    | .error .androidMissing
  let some kotlinHome :=
      (hints.kotlinHome.or (env.firstDirectory? files ["KOTLIN_HOME"])).or
        (kotlinOnPath? env files)
    | .error .kotlinMissing
  let java := findJava env files hints.javaHome
  let buildToolsRoot := androidHome / "build-tools"
  let buildTools ← match hints.buildTools with
    | some version => pure (buildToolsRoot / version)
    | none => latestVersion files buildToolsRoot "build-tools" some
  let platformsRoot := androidHome / "platforms"
  let platform ← match hints.platform with
    | some name => pure (platformsRoot / name)
    | none => latestVersion files platformsRoot "platform" platformVersion?
  return .ofLayout files androidHome kotlinHome java buildTools platform scratch

end SnippetLens.Toolchain
