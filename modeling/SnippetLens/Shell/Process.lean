import SnippetLens.Shell.Builtin.Call
import SnippetLens.Shell.Start
import SnippetLens.Shell.Trace

/-!
Processes. A process is a shell that runs a script: it holds a state, what it is to do next, and
what waits for that, the frames, innermost first.
-/

namespace SnippetLens.Shell

open Files Tool

structure Mode where
  /-- Somebody asks whether it fails. -/
  tested : Bool := false
  /-- The shell ends with it. -/
  last : Bool := false
  deriving DecidableEq, Repr

namespace Mode

def inner (mode : Mode) : Mode :=
  { mode with last := false }

def asked : Mode :=
  { tested := true }

end Mode

inductive Joint where
  | always
  | ifOk
  | ifFailed
  deriving DecidableEq, Repr

inductive Redirecting where
  /-- A simple command, and the assignments before it. -/
  | simple (mode : Mode) (assignments : List (Name × Word)) (i : Invocation)
  | compound (mode : Mode) (body : Command)
  /-- A command in a shell of its own, where nothing has to be given back. -/
  | inner (mode : Mode) (body : Command)

inductive Expanded where
  /-- A simple command, and the assignments before it. -/
  | invocation (mode : Mode) (assignments : List (Name × Word)) (i : Invocation)
  /-- The same after its assignments, and how it is told where commands are. -/
  | assigned (mode : Mode) (i : Invocation) (trace : Option Trace)
  /-- A loop over texts. -/
  | texts (mode : Mode) (name : Name) (texts : List (List Char)) (body : Command)
  /-- The command of the arm that was chosen. -/
  | chosen (mode : Mode) (command : Command)
  | redirected (mode : Mode) (targets : List Target) (body : Command)
  /-- The text of a document that a descriptor is to lead to, and the redirections after it. -/
  | document (descriptor : Nat) (text : Except String (List Char)) (rest : List Target)
      (after : Redirecting)
  | subshell (mode : Mode) (background : Bool) (targets : List Target) (body : Command)

inductive Cause where
  /-- Something is wrong. -/
  | fault
  /-- The shell has done its last command, or one has failed where none may. -/
  | finished
  /-- The shell was asked to end. -/
  | exit
  deriving DecidableEq, Repr

inductive Control where
  | run (command : Command) (mode : Mode)
  /-- A command has its answer. -/
  | done (status : Nat)
  /-- Words are being expanded. -/
  | expand (dialogue : Dialogue Expanded)
  /-- Carries out a command of the shell, which may have to wait for something. -/
  | call (builtin : Builtin) (arguments : List (List Char)) (isSpecial : Bool)
  /-- Waits for a job, whose answer is that of a command. -/
  | await (job : Nat)
  /-- Reads what a command in a word writes, and then waits for it. -/
  | collect (descriptor job : Nat) (read : List Char) (isRead : Bool)
      (resume : State → List Char → Nat → Dialogue Expanded)
  /-- Carries out redirections. -/
  | redirect (targets : List Target) (after : Redirecting)
  /-- Reads commands from an open file and runs them. -/
  | load (file : Option Nat)
  /-- Puts a program in the place of the shell. -/
  | replace (words : List (List Char)) (searchPath : Option (List Char)) (index : Option Nat)
  | giveUp (cause : Cause)
  | over (outcome : Outcome)

structure Passage where
  source : Source
  mode : Mode
  /-- The answer of the last command in it. -/
  status : Nat := 0
  /-- The text is what a file holds; then leaving a function leaves it too. -/
  isFile : Bool := false
  /-- How far the script around it has been read. -/
  readBefore : Nat := 0

inductive Frame where
  | reading (passage : Passage)
  /-- A shell that reads its input after its script. -/
  | input
  | second (joint : Joint) (command : Command) (mode : Mode)
  | negation
  | branch (yes no : Command) (mode : Mode)
  /-- A loop whose test is running, and the answer of its last round. -/
  | test (expected : Bool) (test body : Command) (mode : Mode) (status : Nat)
  /-- A loop whose body is running. -/
  | round (expected : Bool) (test body : Command) (mode : Mode)
  | each (name : Name) (rest : List (List Char)) (body : Command) (mode : Mode)
  /-- Redirections of a compound command. -/
  | redirected
  /-- A command that must not fail where commands must not. -/
  | checked
  | last
  /-- A simple command: whether it has redirections, whether they stay, and how many scopes and how
  many commands with redirections were around it. -/
  | simple (hasTargets forGood : Bool) (scopes redirected : Nat)
  /-- A command of the shell that runs others, and the one that was running before. -/
  | builtin (speaker : Option (List Char)) (isSpecial : Bool)
  /-- A function, with what is given back after it. -/
  | function (arguments : List (List Char)) (index : Nat) (offset : Option Nat) (loops : Nat)
  /-- The actions for signals, what is done after them, the answer that is given back, and the one
  that was held before. -/
  | actions (next : Control) (status : Nat) (held : Option Nat)
  /-- The action at the end of the shell. -/
  | ending

structure Process where
  id : Nat
  parent : Nat
  state : State
  control : Control
  frames : List Frame := []
  /-- A signal has stopped it. -/
  isStopped : Bool := false

namespace Process

def isOver (p : Process) : Bool :=
  match p.control with
  | .over _ => true
  | _ => false

def openFiles (p : Process) : List Nat :=
  let loaded := match p.control with
    | .load (some number) => [number]
    | _ => []
  loaded ++ p.state.descriptors.map (·.2)

def go (p : Process) (control : Control) : Process :=
  { p with control }

def push (p : Process) (frame : Frame) : Process :=
  { p with frames := frame :: p.frames }

def finish (p : Process) (status : Nat) : Process :=
  { p with state := { p.state with status }, control := .done status }

def change (p : Process) (f : State → State) : Process :=
  { p with state := f p.state }

def receive (p : Process) (signal : Signal) : Process :=
  if p.isOver || signal = Signal.atExit then p
  else if signal = 18 then { p with isStopped := false }
  else if signal = 9 then p.go (.over (.killed signal))
  else if signal = 19 then { p with isStopped := true }
  else if p.state.ignores signal then p
  else if (p.state.action? signal).isSome then
    p.change fun s => { s with caught := s.caught ++ [signal] }
  else if Signal.harmless.contains signal then p
  else if Signal.stopping.contains signal then { p with isStopped := true }
  else p.go (.over (.killed signal))

/-- A process that a process starts: a shell with a copy of its state. One that nobody waits for
does not hear the signals of the keyboard. -/
def child (p : Process) (id : Nat) (background : Bool) (control : Control) : Process :=
  let s := p.state.forked
  let deaf := if background then Signal.fromKeyboard ++ s.deaf else s.deaf
  { id, parent := p.id, state := { s with deaf }, control }

end Process

end SnippetLens.Shell
