import SnippetLens.Toolchain.Locations

/-!
The command of each stage, and what running one answers.
-/

namespace SnippetLens.Build

open Files Toolchain

structure Command where
  program : FilePath
  arguments : List String := []
  deriving DecidableEq, Repr

namespace Command

def withArgument (c : Command) (argument : String) : Command :=
  { c with arguments := c.arguments ++ [argument] }

def withArguments (c : Command) (arguments : List String) : Command :=
  { c with arguments := c.arguments ++ arguments }

def words (c : Command) : List String :=
  c.program.text :: c.arguments

def display (c : Command) : String :=
  " ".intercalate c.words

end Command

/-- How a tool ended, and what it said on both of its streams. -/
structure ToolResult where
  exitCode : Int
  output : String
  deriving DecidableEq, Repr

namespace ToolResult

def noExitCode : Int := -1

def launchFailure (message : String) : ToolResult := ⟨noExitCode, message⟩

def succeeded (r : ToolResult) : Bool :=
  r.exitCode = 0

end ToolResult

/-! ### The files of a build -/

def sourceFile : String := "KotlinExplorer.kt"

def rulesFile : String := "rules.txt"

def dexFile : String := "classes.dex"

def oatFile : String := "classes.oat"

def optimizerClass : String := "com.android.tools.r8.R8"

def dexerClass : String := "com.android.tools.r8.D8"

/-! ### The commands -/

def compileCommand (l : Locations) : Command where
  program := l.kotlinc
  arguments :=
    ["-Xmulti-platform", "-classpath",
      ":".intercalate ((l.runtimeJars ++ [l.platformJar]).map (·.text)),
      (l.scratch / sourceFile).text]

def jarCommand (l : Locations) (mainClass : String) : Command where
  program := l.java
  arguments := ["-classpath", l.optimizerJar.text, mainClass]

def optimizeCommand (l : Locations) (minApi : Nat) (classes : List String) : Command :=
  ((jarCommand l optimizerClass).withArguments
    ["--release", "--min-api", toString minApi, "--pg-conf", rulesFile, "--output", ".", "--lib",
      l.platformJar.text]).withArguments (classes ++ l.runtimeJars.map (·.text))

/-- Makes a dex file of the class files and the runtime jars as they are. -/
def dexCommand (l : Locations) (minApi : Nat) (classes : List String) : Command :=
  ((jarCommand l dexerClass).withArguments
    ["--min-api", toString minApi, "--output", "."]).withArguments
      (classes ++ l.runtimeJars.map (·.text))

def listBytecodeCommand (l : Locations) : Command :=
  ⟨l.dexdump, ["-d", dexFile]⟩

def devicePath (directory file : String) : String :=
  String.ofList (directory.toList.reverse.dropWhile (· = '/')).reverse ++ "/" ++ file

def pushCommand (l : Locations) (directory : String) : Command :=
  ⟨l.adb, ["push", dexFile, devicePath directory dexFile]⟩

def aotCompileCommand (l : Locations) (directory : String) : Command :=
  ⟨l.adb, ["shell", "dex2oat", "--dex-file=" ++ devicePath directory dexFile,
    "--oat-file=" ++ devicePath directory oatFile]⟩

def listNativeCodeCommand (l : Locations) (directory : String) : Command :=
  ⟨l.adb, ["shell", "oatdump", "--oat-file=" ++ devicePath directory oatFile]⟩

end SnippetLens.Build
