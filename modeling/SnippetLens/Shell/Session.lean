import SnippetLens.Shell.State
import SnippetLens.Shell.World

/-!
What a shell does while it carries out one of its own commands: it changes its state and the world
it shares with the other processes, until it has an answer or cannot go on.
-/

namespace SnippetLens.Shell

open Files

structure Surroundings where
  processes : List Nat := []
  /-- The open files that their descriptors lead to. -/
  files : List Nat := []

structure Session where
  /-- The process of the shell. -/
  self : Nat
  state : State
  world : World
  around : Surroundings
  /-- What is to be written to the output when the command is over, last piece first. -/
  held : List (List Char) := []

inductive Stop where
  /-- Something is wrong, and it has been told. -/
  | fault
  /-- The shell ends. -/
  | exit
  /-- A signal ends the process. -/
  | death (signal : Signal)
  /-- The answer depends on something that has not happened yet. -/
  | later
  deriving DecidableEq, Repr

abbrev Act := ExceptT Stop (StateM Session)

namespace Act

def state : Act State := do
  return (← get).state

def change (f : State → State) : Act Unit :=
  modify fun s => { s with state := f s.state }

def files : Act FileTree := do
  let s ← get
  return { s.world.files with here := s.state.here }

def setFiles (files : FileTree) : Act Unit :=
  modify fun s => { s with world := { s.world with files } }

def openFiles : Act (List Nat) := do
  let s ← get
  return s.state.descriptors.map (·.2) ++ s.around.files

def receive (signal : Signal) : Act Unit := do
  let s ← state
  if signal = Signal.atExit || s.ignores signal then return
  else if (s.action? signal).isSome then
    change fun s => { s with caught := s.caught ++ [signal] }
  else if Signal.harmless.contains signal then return
  else throw (.death signal)

def write (descriptor : Nat) (cs : List Char) : Act Bool := do
  let s ← get
  match s.state.file? descriptor with
  | none => return false
  | some number =>
    let numbers ← openFiles
    let isRead := fun pipe => numbers.any fun n => s.world.file? n = some (.reader pipe)
    match s.world.write isRead number cs with
    | .done world =>
      set { s with world }
      return true
    | .refused => return false
    | .broken =>
      receive Signal.brokenPipe
      return false

def put (cs : List Char) : Act Unit :=
  modify fun s => { s with held := cs :: s.held }

def flush : Act Bool := do
  let cs := (← get).held.reverse.flatten
  modify fun s => { s with held := [] }
  if cs.isEmpty then return true else write 1 cs

/-- Writes a message to the error stream: who speaks, the line, the command, and what there is to
say. -/
def complain (message : String) : Act Unit := do
  let s ← state
  let start := s.name ++ ": ".toList ++ decimal s.line ++ ": ".toList
  let speaker := match s.speaker with
    | some name => name ++ ": ".toList
    | none => []
  let _ ← write 2 (start ++ speaker ++ Text.Octets.ofText message ++ ['\n'])

def refuse {α : Type} (message : String) : Act α := do
  complain message
  change fun s => { s with status := 2 }
  let _ ← flush
  throw .fault

def attempt (f : State → Except String State) : Act Unit := do
  match f (← state) with
  | .ok s => change fun _ => s
  | .error message => refuse message

def countOf (argument : List Char) : Act Nat := do
  match count? argument with
  | some n => return n
  | none => refuse (State.illegalNumber argument)

end Act

end SnippetLens.Shell
