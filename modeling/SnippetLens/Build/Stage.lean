/-!
The stages of a build, in the order in which they run, and the panes that they report to.
-/

namespace SnippetLens.Build

inductive Pane where
  | bytecode
  | nativeCode
  deriving DecidableEq, Repr

/-- A step of a build that runs one tool. -/
inductive Stage where
  /-- The source becomes class files. -/
  | compile
  /-- The class files become one dex file. -/
  | optimize
  /-- The bytecode of the dex file is listed. -/
  | listBytecode
  /-- The dex file is copied to the device. -/
  | push
  /-- The device compiles the dex file. -/
  | aotCompile
  /-- The native code is listed. -/
  | listNativeCode
  deriving DecidableEq, Repr

namespace Stage

def all : List Stage :=
  [compile, optimize, listBytecode, push, aotCompile, listNativeCode]

def name : Stage → String
  | compile => "compile"
  | optimize => "optimize"
  | listBytecode => "list-bytecode"
  | push => "push"
  | aotCompile => "aot-compile"
  | listNativeCode => "list-native-code"

/-- What is shown while a stage runs. Its words depend on whether the optimizer is used. -/
def status (optimizing : Bool) : Stage → String
  | compile => "Compiling Kotlin…"
  | optimize => if optimizing then "Optimizing with R8…" else "Dexing…"
  | listBytecode => "Disassembling device bytecode…"
  | push => "Pushing to device…"
  | aotCompile => "AOT compilation…"
  | listNativeCode => "Disassembling native code…"

def pane : Stage → Pane
  | compile | optimize | listBytecode => .bytecode
  | push | aotCompile | listNativeCode => .nativeCode

end Stage

end SnippetLens.Build
