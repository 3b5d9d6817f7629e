import SnippetLens.Files.Access

/-!
Where the tools of a build are, and which of them are missing.
-/

namespace SnippetLens.Toolchain

open Files

structure Locations where
  kotlinc : FilePath
  java : FilePath
  /-- The jar that holds the optimizer and the plain dexer. -/
  optimizerJar : FilePath
  /-- The stubs of the platform. -/
  platformJar : FilePath
  adb : FilePath
  buildTools : FilePath
  dexdump : FilePath
  /-- The jars of the Kotlin runtime. -/
  runtimeJars : List FilePath
  /-- The directory that builds work in. -/
  scratch : FilePath
  deriving DecidableEq, Repr

namespace Locations

def runtimeJarNames : List String :=
  ["kotlin-stdlib.jar", "kotlin-stdlib-jdk8.jar", "kotlin-annotations-jvm.jar",
    "kotlinx-coroutines-core-jvm.jar"]

/-- The runtime jars that a distribution has. If it has none, the first one is kept, so that it
is reported as missing. -/
def runtimeJarsIn (files : FileTree) (kotlinHome : FilePath) : List FilePath :=
  let library := kotlinHome / "lib"
  match (runtimeJarNames.map (library / ·)).filter files.isFile with
  | [] => (runtimeJarNames.take 1).map (library / ·)
  | jars => jars

def ofLayout (files : FileTree)
    (androidHome kotlinHome java buildTools platform scratch : FilePath) : Locations where
  kotlinc := kotlinHome / "bin" / "kotlinc"
  java := java
  optimizerJar := buildTools / "lib" / "d8.jar"
  platformJar := platform / "android.jar"
  adb := androidHome / "platform-tools" / "adb"
  buildTools := buildTools
  dexdump := buildTools / "dexdump"
  runtimeJars := runtimeJarsIn files kotlinHome
  scratch := scratch

def labelled (l : Locations) : List (String × FilePath) :=
  [("kotlinc", l.kotlinc), ("java", l.java), ("optimizer jar", l.optimizerJar),
    ("platform jar", l.platformJar), ("adb", l.adb), ("build-tools", l.buildTools),
    ("dexdump", l.dexdump)] ++
    l.runtimeJars.map (("runtime jar", ·)) ++
    [("scratch dir", l.scratch)]

def missing (l : Locations) (files : FileTree) : List (String × FilePath) :=
  l.labelled.filter fun entry => !files.reaches entry.2

end Locations

end SnippetLens.Toolchain
