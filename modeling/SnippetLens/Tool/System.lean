import SnippetLens.Build.Plan
import SnippetLens.Shell.Machine

/-!
Running tools. A tool is a script, or the interpreter of scripts with arguments; it runs in a
directory, reads nothing, and is read on both of its streams until it ends or its time is up.

Time is counted in steps of the script. A script that does not end within the steps that any tool is
given is taken to run until it is stopped.
-/

namespace SnippetLens.Tool

open Files Toolchain Build Shell

/-- The steps that a tool is given. One that has a time limit may well not end. -/
def maxSteps (limit : Option Nat) : Nat :=
  if limit.isSome then 4000000 else 100000000

def scriptVariables (env : Environment) : List (Name × List Char) :=
  env.vars.map fun v => (Text.Octets.ofText v.1, Text.Octets.ofText v.2)

/-- The number of the process that starts the tools, where it is not known. -/
def usualProcess : Nat := 1000

def machineOf (env : Environment) (files : FileTree) (launch : Launch) : Machine :=
  let starter := env.processId.toNat?.getD usualProcess
  let process := starter + 1
  let opened := [(0, .null), (1, .stream .output), (2, .stream .errors)]
  let world : World := { files, opened, nextProcess := process + 1 }
  let descriptors := [(0, 0), (1, 1), (2, 2)]
  let heritage : Heritage := {
    environment := scriptVariables env, descriptors, here := files.here, deaf := [], mask := 18
    limits := [], process, parent := starter }
  let state : State := { name := [], descriptors, here := files.here, directory := [], process }
  let shell : Process := { id := process, parent := starter, state, control := .done 0 }
  let m := Machine.ofProcess shell world
  { m with current := m.current.inherit heritage launch }

def endingOf : Shell.Outcome → Ending
  | .exited code => .exited code
  | .killed _ => .signalled

/-- What a tool says until it ends or its time is up, how its reading ends, and the file tree it
leaves. -/
def observe (env : Environment) (limit : Option Nat) (files : FileTree) (launch : Launch) :
    List Arrival × Ending × FileTree :=
  if limit = some 0 then ([], .expired 0, files)
  else
    let m := (machineOf env files launch).runFor (maxSteps limit)
    let world := m.current.world
    let ending := match m.isOver, m.outcome with
      | true, some outcome => endingOf outcome
      | _, _ => .expired (limit.getD 0)
    (world.arrivals.reverse, ending, world.files)

def launch (env : Environment) (files : FileTree) (command : Build.Command) (dir : FilePath) :
    Except Failure (Launch × FileTree) := do
  let hasZero := fun (text : String) => text.toList.contains '\x00'
  if (dir.text :: command.words).any hasZero then throw .zeroInArgument
  let here ← files.locate dir
  match files.find? here with
  | some .directory =>
    let files := { files with here }
    let start ← Launch.ofProgram files (env.get? "PATH") command.program.text command.arguments
    return (start, files)
  | some _ => throw .notDirectory
  | none => throw .notFound

/-- Runs a command in a directory. A command that does not start is a result like any other. -/
def runTool (env : Environment) (limit : Option Nat) (command : Build.Command) (dir : FilePath)
    (files : FileTree) : ToolResult × FileTree :=
  match launch env files command dir with
  | .error cause =>
    (.launchFailure ("Failed to launch " ++ command.program.text ++ ": " ++ cause.message), files)
  | .ok (launched, inside) =>
    let (arrivals, ending, after) := observe env limit inside launched
    ((Capture.ofArrivals arrivals).result ending, { after with here := files.here })

def timeLimit (s : Config.Settings) : Option Nat :=
  s.build.timeoutSeconds.map (· * 1000)

/-- What runs the tools of a build, with a time limit in milliseconds for each. -/
def systemRunner (env : Environment) (limit : Option Nat) : Runner Unit where
  run := fun _ command dir files =>
    let (result, files) := runTool env limit command dir files
    (result, files, ())

end SnippetLens.Tool
