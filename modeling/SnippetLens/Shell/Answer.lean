import SnippetLens.Shell.Running

/-!
What follows when a command has its answer: the frames that wait for it say what is done next. A
signal that there is an action for is attended to between two commands. When something is wrong, or
the shell ends, the frames are given up, each one giving back what it holds.
-/

namespace SnippetLens.Shell

inductive Turn where
  | goesOn
  /-- The next round starts. -/
  | again
  | ends
  deriving DecidableEq, Repr

namespace State

def turnLoop (s : State) : State × Turn :=
  match s.skip with
  | none => (s, .goesOn)
  | some (.function _) => (s, .ends)
  | some (.loops count again) =>
    if 1 < count then ({ s with skip := some (.loops (count - 1) again) }, .ends)
    else ({ s with skip := none }, if again then .again else .ends)

/-- The state in which commands are not passed over because of a function that ends. -/
def endFunction (s : State) : State :=
  match s.skip with
  | some (.function _) => { s with skip := none }
  | _ => s

def leaveFunction (s : State) (arguments : List (List Char)) (index : Nat) (offset : Option Nat)
    (loops : Nat) : State :=
  { s.endFunction with
    arguments, optionIndex := index, optionOffset := offset, loops, depth := s.depth - 1 }

def nextCaught? (s : State) : Option Signal :=
  (s.caught.filter fun signal => (s.action? signal).any (!·.isEmpty)).min?

end State

namespace Frame

def attends : Frame → Bool
  | .checked | .simple .. | .builtin .. | .actions .. | .ending => false
  | _ => true

end Frame

namespace Running

/-! ### Texts that are run -/

def closeText (r : Running) (p : Passage) : Running :=
  (r.change fun s => { s with readTo := p.readBefore }).go (.done p.status)

def repeatRead (r : Running) (p : Passage) (read : List Char) : Running :=
  if p.isFile && r.state.has .repeatsLines then (r.act (Act.write 2 read)).2 else r

def reminder : String :=
  "\nUse \"exit\" to leave shell.\n"

def maxReminders : Nat := 50

def endText (r : Running) (p : Passage) : Running :=
  let isScript := p.isFile && r.process.frames.isEmpty
  let r := if isScript && r.state.has .ignoresEnd then
      let told := (List.replicate maxReminders reminder.toList).flatten
      (r.act (Act.write 2 told)).2
    else r
  r.closeText p

def readNext (r : Running) (p : Passage) : Running :=
  let before := p.source.rest
  match ({ p.source with aliases := r.state.aliases } : Source).next with
  | .error e =>
    let lines := World.firstLines (e.line + 1 - p.source.line) before
    let r := (r.repeatRead p lines).change fun s => { s with line := e.line, readTo := e.line }
    (r.push (.reading p)).refuse e.fault.message
  | .ok (reading, source) =>
    let r := r.repeatRead p (before.take (before.length - source.rest.length))
    let p := { p with source }
    match reading with
    | .nothing => r.endText p
    | .complete command isLast =>
      let isScript := p.isFile && r.process.frames.isEmpty
      let r := r.change fun s =>
        { s with
          readTo := source.line
          scriptReadTo := if isScript then source.line else s.scriptReadTo }
      (r.push (.reading p)).run command { p.mode with last := p.mode.last && isLast }

def runText (r : Running) (text : List Char) (isFile : Bool) (mode : Mode) : Running :=
  r.readNext
    { source := { rest := text }, mode, isFile, readBefore := r.state.readTo }

def afterCommand (r : Running) (p : Passage) (status : Nat) : Running :=
  let p := { p with status }
  match r.state.skip with
  | none => r.readNext p
  | some _ => (if p.isFile then r.change State.endFunction else r).closeText p

/-! ### Actions -/

/-- Does what is to be done about the next signal that arrived, or goes on with what was to be done
before. -/
def attend (r : Running) (next : Control) (status : Nat) (held : Option Nat) : Running :=
  match r.state.skip, r.state.nextCaught? with
  | none, some signal =>
    let action := (r.state.action? signal).getD []
    let r := r.change fun s => { s with caught := s.caught.filter (· ≠ signal) }
    (r.push (.actions next status held)).runText action false {}
  | none, none => (r.change fun s => { s with heldStatus := held, caught := [] }).go next
  | some _, _ => (r.change fun s => { s with heldStatus := held }).go next

/-- Does what is to be done about the signals that arrived, before what was to be done next. -/
def attendFirst (r : Running) (next : Control) : Running :=
  let held := r.state.heldStatus
  let status := held.getD r.state.status
  (r.change fun s => { s with heldStatus := some status }).attend next status held

def mustAttend (r : Running) : Bool :=
  !r.state.caught.isEmpty && r.state.skip.isNone

/-! ### Loops -/

def endLoop (r : Running) (status : Nat) : Running :=
  (r.change fun s => { s with loops := s.loops - 1 }).finish status

def askLoop (r : Running) (expected : Bool) (test body : Command) (mode : Mode)
    (status : Nat) : Running :=
  (r.push (.test expected test body mode status)).run test .asked

def nextText (r : Running) (name : Name) (texts : List (List Char)) (body : Command)
    (mode : Mode) (status : Nat) : Running :=
  match texts with
  | [] => r.endLoop status
  | text :: rest =>
    r.after (Act.attempt (·.put name text)) true fun r _ =>
      (r.push (.each name rest body mode)).run body mode

/-! ### Answers -/

def leaveSimple (r : Running) (hasTargets forGood : Bool) (scopes redirected : Nat) : Running :=
  let r := r.change fun s =>
    let s := if hasTargets then s.leaveRedirected forGood else s
    (s.leaveRedirections redirected).leaveScopes scopes
  if hasTargets && forGood then (r.act Act.settle).2 else r

def resume (r : Running) (status : Nat) : Frame → Running
  | .reading p => r.afterCommand p status
  | .input => r.go (.load (r.state.file? 0))
  | .second joint command mode =>
    let goesOn := match joint with
      | .always => true
      | .ifOk => status = 0
      | .ifFailed => status ≠ 0
    if r.state.skip.isNone && goesOn then r.run command mode else r.go (.done status)
  | .negation =>
    if r.state.skip.isSome then r.go (.done status) else r.finish (if status = 0 then 1 else 0)
  | .branch yes no mode =>
    if r.state.skip.isSome then r.go (.done status)
    else if status = 0 then r.run yes mode
    else
      match no with
      | .nothing => r.finish 0
      | no => r.run no mode
  | .test expected test body mode before =>
    let answers := r.state.skip = some (.function true)
    let (s, turn) := r.state.turnLoop
    let r := r.change fun _ => s
    match turn with
    | .ends => r.endLoop (if answers then status else before)
    | .again => r.askLoop expected test body mode before
    | .goesOn =>
      if decide (status = 0) = expected then
        (r.push (.round expected test body mode)).run body mode
      else r.endLoop before
  | .round expected test body mode =>
    let (s, turn) := r.state.turnLoop
    let r := r.change fun _ => s
    if turn = .ends then r.endLoop status else r.askLoop expected test body mode status
  | .each name rest body mode =>
    let (s, turn) := r.state.turnLoop
    let r := r.change fun _ => s
    if turn = .ends then r.endLoop status else r.nextText name rest body mode status
  | .redirected => (r.change (·.leaveRedirected false)).finish status
  | .checked =>
    if r.state.has .stopsOnFailure && status ≠ 0 then r.giveUp .finished else r.go (.done status)
  | .last => r.giveUp .finished
  | .simple hasTargets forGood scopes redirected =>
    (r.leaveSimple hasTargets forGood scopes redirected).finish status
  | .builtin speaker _ => (r.change fun s => { s with speaker }).finish status
  | .function arguments index offset loops =>
    let r := r.change (·.leaveFunction arguments index offset loops)
    r.go (.done r.state.status)
  | .actions next before held =>
    let isAnswer := r.state.skip = some (.function true)
    (if isAnswer then r else r.change fun s => { s with status := before }).attend next before held
  | .ending =>
    let status := r.state.heldStatus.getD status
    r.go (.over (.exited (status % 256)))

def answer (r : Running) (status : Nat) : Running :=
  match r.process.frames with
  | [] => r.giveUp .finished
  | frame :: frames =>
    if frame.attends && r.mustAttend then r.attendFirst (.done status)
    else (r.update fun p => { p with frames }).resume status frame

/-! ### Giving up -/

def endShell (r : Running) (cause : Cause) : Running :=
  let s := r.state
  let isHeld := cause = .exit || s.skip = some (.function false)
  let status := if isHeld then s.heldStatus.getD s.status else s.status
  let s := { s with status, skip := none, loops := 0, heldStatus := none }.leaveRedirections 0
  let r := r.change fun _ => s
  match s.action? Signal.atExit with
  | none | some [] => r.go (.over (.exited (status % 256)))
  | some action =>
    let r := r.change fun s =>
      { s with
        actions := s.actions.filter (·.1 ≠ Signal.atExit), heldStatus := some status }
    (r.push .ending).runText action false {}

/-- Gives up frames: all of them, or those inside of a command that goes on after a fault. -/
def giveUpFrames (r : Running) (cause : Cause) : List Frame → Running
  | [] => (r.update fun p => { p with frames := [] }).endShell cause
  | .builtin speaker isSpecial :: frames =>
    let r := r.change fun s => { s with speaker }
    if cause = .fault && !isSpecial then
      (r.update fun p => { p with frames }).go (.done r.state.status)
    else r.giveUpFrames cause frames
  | .function arguments index offset loops :: frames =>
    (r.change (·.leaveFunction arguments index offset loops)).giveUpFrames cause frames
  | .reading p :: frames =>
    (r.change fun s => { s with readTo := p.readBefore }).giveUpFrames cause frames
  | .ending :: _ =>
    let s := r.state
    let status := if cause = .exit then s.heldStatus.getD s.status else s.status
    r.go (.over (.exited (status % 256)))
  | _ :: frames => r.giveUpFrames cause frames

end Running

end SnippetLens.Shell
