import SnippetLens.Shell.Process

/-!
A process at work: what it changes besides itself, and the processes that it starts.
-/

namespace SnippetLens.Shell

open Files

structure Running where
  process : Process
  world : World
  around : Surroundings
  /-- The processes that it has started, last one first. -/
  born : List Process := []
  /-- Whether it waits for something that has not happened yet. -/
  isBlocked : Bool := false

namespace Running

def update (r : Running) (f : Process → Process) : Running :=
  { r with process := f r.process }

def change (r : Running) (f : State → State) : Running :=
  r.update (·.change f)

def go (r : Running) (control : Control) : Running :=
  r.update (·.go control)

def push (r : Running) (frame : Frame) : Running :=
  r.update (·.push frame)

def finish (r : Running) (status : Nat) : Running :=
  r.update (·.finish status)

def giveUp (r : Running) (cause : Cause) : Running :=
  r.go (.giveUp cause)

def run (r : Running) (command : Command) (mode : Mode) : Running :=
  r.go (.run command mode)

def state (r : Running) : State :=
  r.process.state

def files (r : Running) : FileTree :=
  { r.world.files with here := r.state.here }

def act {α : Type} (r : Running) (a : Act α) : Except Stop α × Running :=
  let (result, s) := a.run.run ⟨r.process.id, r.state, r.world, r.around, []⟩
  (result, { r with process := { r.process with state := s.state }, world := s.world })

/-- What follows when something has no answer. A fault of a special command, or of none, ends the
shell. -/
def stop (r : Running) (isSpecial : Bool) : Stop → Running
  | .fault => if isSpecial then r.giveUp .fault else r.go (.done r.state.status)
  | .exit => r.giveUp .exit
  | .death signal => r.go (.over (.killed signal))
  | .later => { r with isBlocked := true }

def after {α : Type} (r : Running) (a : Act α) (isSpecial : Bool) (next : Running → α → Running) :
    Running :=
  match r.act a with
  | (.ok value, r') => next r' value
  | (.error .later, _) => { r with isBlocked := true }
  | (.error why, r') => r'.stop isSpecial why

def refuse (r : Running) (message : String) : Running :=
  r.after (Act.refuse message) true fun r (_ : Unit) => r

/-! ### Other processes -/

def fork (r : Running) (background : Bool) (control : Control) (f : State → State) :
    Running × Nat :=
  let id := r.world.nextProcess
  let child := (r.process.child id background control).change fun s =>
    { f s with readTo := s.scriptReadTo }
  let around : Surroundings := {
    processes := id :: r.around.processes
    files := child.state.descriptors.map (·.2) ++ r.around.files }
  ({ r with
    world := { r.world with nextProcess := id + 1 }, born := child :: r.born, around }, id)

def startJob (r : Running) (processes : List Nat) : Running × Nat :=
  let (number, jobs) := Job.start r.state.jobs processes
  (r.change fun s => { s with jobs }, number)

def leaveJob (r : Running) (processes : List Nat) : Running :=
  let (r, _) := r.startJob processes
  (r.change fun s => { s with lastBackground := processes.getLast? }).finish 0

def forkAndWait (r : Running) (control : Control) : Running :=
  let (r, id) := r.fork false control id
  let (r, number) := r.startJob [id]
  r.go (.await number)

def openFile (r : Running) (file : OpenFile) : Running × Nat :=
  let (number, world) := r.world.addFile file
  ({ r with world }, number)

def startOutput (r : Running) (command : Command)
    (resume : State → List Char → Nat → Dialogue Expanded) : Running :=
  let (reader, writer, world) := r.world.addPipe
  let r := { r with world }
  let (r, id) := r.fork false (.run command { last := true }) (·.connect 1 writer)
  let (r, job) := r.startJob [id]
  let spare := (r.state.descriptors.map (·.1)).foldl max lastDescriptor + 1
  (r.change (·.connect spare reader)).go (.collect spare job [] false resume)

/-- Reads what the command in a word writes, or goes on with what was read when the command is
over. -/
def collect (r : Running) (descriptor job : Nat) (text : List Char) (isRead : Bool)
    (resume : State → List Char → Nat → Dialogue Expanded) : Running :=
  if isRead then
    r.after (Act.await job false) true fun r status =>
      let r := r.change fun s => { s with jobs := s.jobs.filter (·.number ≠ job) }
      r.go (.expand (resume r.state text status))
  else
    match r.state.file? descriptor with
    | none => r.go (.collect descriptor job text true resume)
    | some file =>
      let numbers := r.state.descriptors.map (·.2) ++ r.around.files
      let isWritten := fun pipe => numbers.any fun n => r.world.file? n = some (.writer pipe)
      match r.world.read isWritten true file with
      | .text cs world =>
        let r := { r with world }.change (·.disconnect descriptor)
        r.go (.collect descriptor job (cs.filter (· ≠ '\x00')) true resume)
      | .refused => r.go (.collect descriptor job text true resume)
      | .later => { r with isBlocked := true }

/-- The descriptors of a part of a pipe, which reads what the part before it writes. -/
def joinParts (input output : Option Nat) (s : State) : State :=
  let s := match input with
    | some file => s.connect 0 file
    | none => s
  match output with
  | some file => s.connect 1 file
  | none => s

/-- Starts the parts of a pipe, each reading from the one before it, and gives their numbers. In the
background the first one reads nothing. -/
def startParts (r : Running) (background : Bool) (mode : Mode) (input : Option Nat) :
    List Command → Running × List Nat
  | [] => (r, [])
  | [part] =>
    let (r, id) := r.fork background (.run part mode) (joinParts input none)
    (r, [id])
  | part :: rest =>
    let (reader, writer, world) := r.world.addPipe
    let (r, id) := { r with world }.fork background (.run part mode) (joinParts input (some writer))
    let (r, ids) := startParts r background mode (some reader) rest
    (r, id :: ids)

def startPipe (r : Running) (background : Bool) (mode : Mode) (parts : List Command) : Running :=
  let (r, nothing) := if background then
      let (r, number) := r.openFile .null
      (r, some number)
    else (r, none)
  let (r, ids) := r.startParts background { mode with last := true } nothing parts
  if background then r.leaveJob ids
  else
    let (r, number) := r.startJob ids
    r.go (.await number)

/-! ### Programs -/

inductive Started where
  | launch (l : Tool.Launch)
  | failed (status : Nat) (why : String)

/-- What starting the first program among paths starts that can be started. A file without a line
that names its interpreter is a script of the shell. -/
def launchFirst (files : FileTree) (name : Name) (arguments : List String)
    (cause : Failure) : List (List Char) → Started
  | [] =>
    match cause with
    | .notFound | .notDirectory => .failed 127 "not found"
    | .tooManyLinks | .nameTooLong => .failed 127 cause.reason
    | cause => .failed 126 cause.reason
  | path :: rest =>
    let p := pathOf path
    match Tool.Launch.atPath files arguments (Text.Octets.toText name) p
        (Tool.Launch.maxNesting + 1) with
    | .ok launch => .launch launch
    | .error .notExecutable => .launch ⟨"/bin/sh", p.text :: arguments⟩
    | .error .notFound | .error .notDirectory => launchFirst files name arguments cause rest
    | .error cause => launchFirst files name arguments cause rest

def heritage (r : Running) : Heritage :=
  let s := r.state
  { environment := s.environment, descriptors := s.descriptors, here := s.here
    deaf := s.silenced, mask := s.mask, limits := s.limits
    process := r.process.id, parent := r.process.parent }

def inherit (r : Running) (heritage : Heritage) (launch : Tool.Launch) : Running :=
  let (state, told, script) := startShell r.files heritage launch
  let r := { r with process := { r.process with state, frames := [] } }
  let say := do
    if !told.isEmpty then
      let _ ← Act.write 1 told.toList
    match script with
    | .error message => Act.refuse message
    | .ok script =>
      if state.has .interactive || state.has .monitor then
        Act.complain "can't access tty; job control turned off"
        Act.change (·.turn .monitor false)
      return script
  r.after say true fun r script =>
    match script with
    | .text cs =>
      let goesOn := state.has .readsInput
      let r := if goesOn then r.push .input else r
      let source : Source := { rest := cs }
      (r.push (.reading { source, mode := { last := !goesOn } })).go (.done 0)
    | .file content =>
      let source : Source := { rest := content }
      (r.push (.reading { source, mode := {}, isFile := true })).go (.done 0)
    | .input => r.go (.load (state.file? 0))

def replace (r : Running) (words : List (List Char)) (searchPath : Option (List Char))
    (index : Option Nat) : Running :=
  match words with
  | [] => r.giveUp .finished
  | name :: arguments =>
    let paths := if name.contains '/' then [name]
      else (candidates (searchPath <|> r.state.searchPath) name).drop (index.getD 0)
    match launchFirst r.files name (arguments.map Text.Octets.toText) .notFound paths with
    | .launch launch => r.inherit r.heritage launch
    | .failed status why =>
      let message := Text.Octets.toText name ++ ": " ++ why
      r.after (Act.complain message) true fun r _ =>
        (r.change fun s => { s with status }).giveUp .finished

end Running

end SnippetLens.Shell
