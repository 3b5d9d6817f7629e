import SnippetLens.Files.Access
import SnippetLens.Shell.Job
import SnippetLens.Shell.Quote
import SnippetLens.Shell.Setting
import SnippetLens.Shell.Source
import SnippetLens.Text.Octets

/-!
What a shell holds. A shell that is started for a part of a script gets a copy of it.
-/

namespace SnippetLens.Shell

open Files

structure Variable where
  name : Name
  value : Option (List Char)
  /-- Whether it is handed to programs. -/
  exported : Bool := false
  /-- Whether it keeps its value for good. -/
  fixed : Bool := false
  deriving DecidableEq, Repr

structure Finding where
  name : Name
  /-- How many directories of the search path were searched before. -/
  index : Nat
  /-- The shell has gone to another directory since; then a path that starts there is not sure. -/
  isOld : Bool := false
  deriving DecidableEq, Repr

inductive Skip where
  /-- So many loops end, or start their next round. -/
  | loops (count : Nat) (again : Bool)
  /-- The function or the text that is run ends; it may have an answer of its own. -/
  | function (answers : Bool)
  deriving DecidableEq, Repr

inductive Saved where
  | variable (name : Name) (old : Option Variable)
  | settings (old : List Setting)
  deriving DecidableEq, Repr

structure State where
  /-- What the shell was started as. -/
  name : List Char
  arguments : List (List Char) := []
  vars : List Variable := []
  functions : List (Name × Command) := []
  aliases : List Alias := []
  settings : List Setting := []
  /-- The open descriptors, and the number of the open file that each leads to. -/
  descriptors : List (Nat × Nat)
  here : Place
  /-- How the shell calls the directory it is in. -/
  directory : List Char
  /-- The answer of the last command. -/
  status : Nat := 0
  /-- The line that faults are reported for. -/
  line : Nat := 0
  /-- The line up to which the text that is running has been read. -/
  readTo : Nat := 0
  /-- The line up to which the file with the script has been read. A process that is started knows
  of no other text. -/
  scriptReadTo : Nat := 1
  /-- The command of the shell that is running, which faults are reported with. -/
  speaker : Option (List Char) := none
  /-- The answer of the last command in a word of the command that is read now. -/
  outputStatus : Nat := 0
  /-- What is done when a signal arrives; nothing at all if the text is empty. -/
  actions : List (Signal × List Char) := []
  /-- The signals that were not heard when the shell was started. -/
  deaf : List Signal := []
  /-- The signals that arrived and whose actions are still to be done. -/
  caught : List Signal := []
  /-- The jobs, the last one started first. -/
  jobs : List Job := []
  /-- The last process that was started in the background. -/
  lastBackground : Option Nat := none
  /-- The process of the shell that started the script. -/
  process : Nat
  /-- Where programs were found. -/
  found : List Finding := []
  /-- What is not granted to anyone on new files. -/
  mask : Nat := 18
  /-- The limits that were set, each by its letter: the one in force, and the highest one
  allowed. -/
  limits : List (Char × Option Nat × Option Nat) := []
  /-- The argument in which the next option is looked for, and where in the one before it. -/
  optionIndex : Nat := 1
  optionOffset : Option Nat := none
  /-- How many loops are around the command, and how many functions are running. -/
  loops : Nat := 0
  depth : Nat := 0
  /-- Why commands are passed over. -/
  skip : Option Skip := none
  /-- For each function that is running and each command with variables of its own, innermost first,
  what is given back after it. -/
  scopes : List (List Saved) := []
  /-- For each command with redirections that is running, innermost first, the descriptors that it
  changed and those that keep what they led to, if they led anywhere. -/
  redirected : List (List (Nat × Option Nat)) := []
  /-- The answer that is given back after an action, while that runs. -/
  heldStatus : Option Nat := none
  deriving Inhabited

/-- The largest number of a descriptor that a script can name. Above it the shell keeps what it
will give back. -/
def lastDescriptor : Nat := 9

def pathOf (cs : List Char) : FilePath :=
  ⟨Text.Octets.toText cs⟩

namespace State

def has (s : State) (setting : Setting) : Bool :=
  s.settings.contains setting

def turn (s : State) (setting : Setting) (on : Bool) : State :=
  { s with settings := setting.turn on s.settings }

def turnByLetter (s : State) (setting : Setting) (on : Bool) : State :=
  { s with settings := setting.turnByLetter on s.settings }

/-! ### Variables -/

def lookup? (s : State) (name : Name) : Option Variable :=
  s.vars.find? (·.name = name)

def get? (s : State) (name : Name) : Option (List Char) :=
  (s.lookup? name).bind (·.value)

def get (s : State) (name : String) : List Char :=
  (s.get? name.toList).getD []

def replace (s : State) (v : Variable) : State :=
  { s with vars := v :: s.vars.filter (·.name ≠ v.name) }

def erase (s : State) (name : Name) : State :=
  { s with vars := s.vars.filter (·.name ≠ name) }

def fixedMessage (name : Name) : String :=
  Text.Octets.toText name ++ ": is read only"

def illegalNumber (text : List Char) : String :=
  "Illegal number: " ++ Text.Octets.toText text

/-- What follows when a variable changes: the places of programs are forgotten with the search
path, and the search for options starts where its variable says. -/
def changed (s : State) (name : Name) (value : Option (List Char)) : Except String State :=
  if name = "PATH".toList then .ok { s with found := [] }
  else if name = "OPTIND".toList then
    match count? (value.getD []) with
    | some n => .ok { s with optionIndex := max n 1, optionOffset := none }
    | none => .error (illegalNumber (value.getD []))
  else .ok s

/-- The state with a value given to a variable; it may be handed to programs or keep its value from
then on. -/
def put (s : State) (name : Name) (value : List Char) (exported : Bool := false)
    (fixed : Bool := false) : Except String State := do
  let old := s.lookup? name
  if old.any (·.fixed) then throw (fixedMessage name)
  let s ← s.changed name (some value)
  let exported := exported || s.has .exportsAll || old.any (·.exported)
  return s.replace ⟨name, some value, exported, fixed⟩

def mark (s : State) (name : Name) (exported fixed : Bool) : State :=
  let v := (s.lookup? name).getD ⟨name, none, false, false⟩
  s.replace { v with exported := v.exported || exported, fixed := v.fixed || fixed }

def drop (s : State) (name : Name) : Except String State := do
  if (s.lookup? name).any (·.fixed) then throw (fixedMessage name)
  let s ← if (s.get? name).isSome then s.changed name none else pure s
  return s.erase name

def giveBack (s : State) (name : Name) (old : Option Variable) : State :=
  let back := match old with
    | some v => s.replace v
    | none => s.erase name
  match back.changed name (old.bind (·.value)) with
  | .ok back => back
  | .error _ => back

def restore (s : State) : Saved → State
  | .variable name old => s.giveBack name old
  | .settings old => { s with settings := old }

def remember (s : State) (saved : Saved) : State :=
  match s.scopes with
  | [] => s
  | scope :: rest => { s with scopes := (saved :: scope) :: rest }

def leaveScopes (s : State) (left : Nat) : State :=
  let gone := s.scopes.take (s.scopes.length - left)
  let back := (gone.flatMap id).foldl restore s
  { back with scopes := s.scopes.drop (s.scopes.length - left) }

def environment (s : State) : List (Name × List Char) :=
  s.vars.filterMap fun v => if v.exported then v.value.map (v.name, ·) else none

def sortedVariables (s : State) : List Variable :=
  s.vars.mergeSort fun a b => String.ofList a.name ≤ String.ofList b.name

def function? (s : State) (name : Name) : Option Command :=
  (s.functions.find? (·.1 = name)).map (·.2)

/-! ### Signals -/

def action? (s : State) (signal : Signal) : Option (List Char) :=
  (s.actions.find? (·.1 = signal)).map (·.2)

def ignores (s : State) (signal : Signal) : Bool :=
  s.deaf.contains signal || s.action? signal = some []

def hasActions (s : State) : Bool :=
  s.actions.any fun a => !a.2.isEmpty

def silenced (s : State) : List Signal :=
  s.deaf ++ (s.actions.filter (·.2.isEmpty)).map (·.1)

def forked (s : State) : State :=
  { s with
    actions := s.actions.filter (·.2.isEmpty)
    caught := [], jobs := [], heldStatus := none, redirected := [] }

/-! ### Descriptors -/

def file? (s : State) (descriptor : Nat) : Option Nat :=
  (s.descriptors.find? (·.1 = descriptor)).map (·.2)

def connect (s : State) (descriptor file : Nat) : State :=
  { s with descriptors := (descriptor, file) :: s.descriptors.filter (·.1 ≠ descriptor) }

def disconnect (s : State) (descriptor : Nat) : State :=
  { s with descriptors := s.descriptors.filter (·.1 ≠ descriptor) }

def enterRedirected (s : State) : State :=
  { s with redirected := [] :: s.redirected }

/-- The state that keeps what a descriptor leads to for the time after the command, if it does not
yet. What is kept has a descriptor above those that scripts can name. -/
def keep (s : State) (descriptor : Nat) : State :=
  match s.redirected with
  | [] => s
  | level :: rest =>
    if level.any (·.1 = descriptor) then s
    else
      match s.file? descriptor with
      | none => { s with redirected := ((descriptor, none) :: level) :: rest }
      | some file =>
        let spare := (s.descriptors.map (·.1)).foldl max lastDescriptor + 1
        let s := s.connect spare file
        { s with redirected := ((descriptor, some spare) :: level) :: rest }

def giveBackDescriptor (forGood : Bool) (s : State) (kept : Nat × Option Nat) : State :=
  match kept with
  | (descriptor, none) => if forGood then s else s.disconnect descriptor
  | (descriptor, some spare) =>
    let s := match forGood, s.file? spare with
      | false, some file => s.connect descriptor file
      | _, _ => s
    s.disconnect spare

/-- The state after the innermost command with redirections, which may stay for good. -/
def leaveRedirected (s : State) (forGood : Bool) : State :=
  match s.redirected with
  | [] => s
  | level :: rest => { level.foldl (giveBackDescriptor forGood) s with redirected := rest }

def leaveRedirections (s : State) (left : Nat) : State :=
  (List.range (s.redirected.length - left)).foldl (fun s _ => s.leaveRedirected false) s

end State

end SnippetLens.Shell
