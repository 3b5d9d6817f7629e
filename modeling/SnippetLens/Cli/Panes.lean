import SnippetLens.Build.Channel
import SnippetLens.Cli.Failure

/-!
What a command prints and writes, and how the messages of a build become that: the status texts are
printed as they arrive, and the last text of each pane is kept until the build has ended.
-/

namespace SnippetLens.Cli

open Files Build

/-- The file tree, and what was printed to the two streams. -/
structure Desk where
  files : FileTree
  output : String := ""
  errors : String := ""
  deriving DecidableEq, Repr

def Desk.print (d : Desk) (text : String) : Desk :=
  { d with output := d.output ++ text }

def Desk.report (d : Desk) (line : String) : Desk :=
  { d with errors := d.errors ++ line ++ "\n" }

structure Panes where
  bytecode : Option String := none
  nativeCode : Option String := none
  deriving DecidableEq, Repr

def Panes.get? (p : Panes) : Pane → Option String
  | .bytecode => p.bytecode
  | .nativeCode => p.nativeCode

def Panes.put (p : Panes) (text : String) : Pane → Panes
  | .bytecode => { p with bytecode := some text }
  | .nativeCode => { p with nativeCode := some text }

@[simp] theorem Panes.get?_put_self (p : Panes) (text : String) (pane : Pane) :
    (p.put text pane).get? pane = some text := by
  cases pane <;> rfl

theorem Panes.get?_put_of_ne (p : Panes) (text : String) {pane other : Pane} (h : other ≠ pane) :
    (p.put text pane).get? other = p.get? other := by
  cases pane <;> cases other <;> simp_all [put, get?]

def collect (quiet : Bool) (s : Panes × Desk) : Event → Panes × Desk
  | .status text => (s.1, if quiet then s.2 else s.2.report text)
  | .pane pane text => (s.1.put text pane, s.2)

def paneTitle : Pane → String
  | .bytecode => "bytecode"
  | .nativeCode => "native code"

/-- Writes the text of a pane to a file, or prints it under its title; a pane without a text is left
out. -/
def writePane (p : Panes) (pane : Pane) (target : Option FilePath) (d : Desk) :
    Except CommandError Unit × Desk :=
  match p.get? pane, target with
  | none, _ => (.ok (), d)
  | some text, none =>
    (.ok (), d.print ("── " ++ paneTitle pane ++ " ──\n" ++ text ++ "\n"))
  | some text, some path =>
    match d.files.writeText path text with
    | .ok files => (.ok (), { d with files })
    | .error cause => (.error (.output path cause), d)

end SnippetLens.Cli
