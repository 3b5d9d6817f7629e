import SnippetLens.Shell.Answer
import SnippetLens.Shell.Command

/-!
Carrying out commands whose words are expanded. A simple command is a function, a command of the
shell, or a program, which runs in a process of its own unless the shell ends with it.
-/

namespace SnippetLens.Shell.Running

open Files

/-! ### Commands of the shell -/

def maxDepth : Nat := 1000

def callFunction (r : Running) (mode : Mode) (body : Command) (arguments : List (List Char)) :
    Running :=
  let s := r.state
  if maxDepth ≤ s.depth then
    r.refuse ("Maximum function recursion depth (" ++ toString maxDepth ++ ") reached")
  else
    let r := r.push (.function s.arguments s.optionIndex s.optionOffset s.loops)
    let r := r.change fun s =>
      { s with arguments, optionIndex := 1, optionOffset := none, loops := 0, depth := s.depth + 1 }
    r.run body { tested := mode.tested }

def enterBuiltin (r : Running) (speaker : List Char) (isSpecial : Bool) : Running :=
  (r.push (.builtin r.state.speaker isSpecial)).change fun s => { s with speaker := some speaker }

/-- Opens a file of commands. A name is looked for in the directories of the search path. -/
def openCommands (name : List Char) : Act (List Char × Nat) := do
  let files ← Act.files
  let path ← if name.contains '/' then pure name
    else
      match (candidates (← Act.state).searchPath name).find? fun path =>
        files.isFile (pathOf path) with
      | some path => pure path
      | none => Act.refuse (Text.Octets.toText name ++ ": not found")
  return (path, ← Act.openToRead path)

def callBuiltin (r : Running) (mode : Mode) (b : Builtin) (arguments : List (List Char))
    (isSpecial : Bool) : Running :=
  let name := b.name.toList
  match b.name with
  | "eval" =>
    let text := [' '].intercalate arguments
    let r := r.enterBuiltin name isSpecial
    if arguments.isEmpty then r.go (.done 0)
    else r.runText text false { tested := mode.tested }
  | "." =>
    (r.enterBuiltin name isSpecial).after (Options.operands arguments) true fun r words =>
      match words with
      | [] => r.go (.done 0)
      | file :: _ =>
        r.after (openCommands file) true fun r (path, number) =>
          (r.change fun s => { s with speaker := some path }).go (.load (some number))
  | "exec" =>
    (r.enterBuiltin name isSpecial).after (Options.operands arguments) true fun r words =>
      if words.isEmpty then r.go (.done 0)
      else
        let r := r.change fun s => (s.turn .interactive false).turn .monitor false
        r.go (.replace words none (some 0))
  | _ => r.go (.call b arguments isSpecial)

def call (r : Running) (b : Builtin) (arguments : List (List Char)) (isSpecial : Bool) : Running :=
  let speaker := r.state.speaker
  let back := fun (r : Running) => r.change fun s => { s with speaker }
  match (r.change fun s => { s with speaker := some b.name.toList }).act (b.call arguments) with
  | (.ok status, r') => (back r').finish status
  | (.error .later, _) => { r with isBlocked := true }
  | (.error why, r') => (back r').stop isSpecial why

/-! ### Simple commands -/

/-- Runs a program in a process of its own; or in this one, if nothing is left to do in it. -/
def runProgram (r : Running) (mode : Mode) (i : Invocation) (searchPath : Option (List Char))
    (index : Option Nat) : Running :=
  let control := Control.replace i.command searchPath index
  if mode.last && !r.state.hasActions then r.go control else r.forkAndWait control

def execute (r : Running) (mode : Mode) (i : Invocation) : Running :=
  match i.command, i.opening.builtin with
  | [], _ => r.finish r.state.outputStatus
  | _ :: arguments, some b => r.callBuiltin mode b arguments i.isSpecial
  | name :: arguments, none =>
    let searchPath := if i.opening.searchesUsual then some usualSearchPath else none
    let find := do
      let meaning ← Act.lookUp name i.opening.skipsFunctions searchPath
      match meaning with
      | .unknown =>
        Act.complain (Text.Octets.toText name ++ ": " ++ (← Act.whyUnknown name searchPath))
      | _ => pure ()
      return meaning
    r.after find true fun r meaning =>
      match meaning with
      | .builtin b => r.callBuiltin mode b arguments i.isSpecial
      | .function body => r.callFunction mode body arguments
      | .program index => r.runProgram mode i searchPath index
      | .unknown => r.finish 127

def tell (r : Running) (i : Invocation) (trace : Option Trace) : Running :=
  match trace with
  | none => r
  | some trace =>
    let kept := if i.targets.isEmpty then none
      else (r.state.redirected.head?.bind fun level => level.find? (·.1 = 2)).bind (·.2)
    let say := do
      match trace.complaint with
      | some message => Act.complain message
      | none => pure ()
      Act.write (kept.getD 2) trace.line
    (r.act say).2

/-- Prepares a simple command: its redirections come first, and then its assignments. -/
def prepare (r : Running) (mode : Mode) (assignments : List (Name × Word)) (i : Invocation) :
    Running :=
  let s := r.state
  let hasTargets := !i.targets.isEmpty
  let replaces := i.calls "exec"
  let r := r.push (.simple hasTargets replaces s.scopes.length s.redirected.length)
  let r := r.change fun s =>
    let s := if i.isolates then { s with scopes := [] :: s.scopes } else s
    if hasTargets then s.enterRedirected else s
  r.go (.redirect i.targets (.simple mode assignments i))

def assign (r : Running) (mode : Mode) (assignments : List (Name × Word)) (i : Invocation) :
    Running :=
  r.expand do
    let exported := i.isolates || i.calls "exec" && 1 < i.words.length
    let told ← Expand.assignAll i.isolates exported assignments
    return .assigned mode i (← Expand.trace (told ++ i.words))

/-! ### Redirections -/

def redirected (r : Running) : Redirecting → Running
  | .simple mode assignments i => r.assign mode assignments i
  | .compound mode body => (r.push .redirected).run body mode.inner
  | .inner mode body => r.run body mode

def notRedirected (r : Running) : Redirecting → Running
  | .simple _ _ i => if i.isSpecial then r.giveUp .fault else r.go (.done r.state.status)
  | .compound mode _ => ((r.change (·.leaveRedirected false)).check mode).finish 2
  | .inner .. => r.giveUp .fault

/-- Carries out something for a redirection, and goes on with the redirections after it. -/
def redirectBy (r : Running) (a : Act Unit) (rest : List Target) (after : Redirecting) : Running :=
  match r.act a with
  | (.ok _, r) => r.go (.redirect rest after)
  | (.error _, r) => r.notRedirected after

def keeps : Redirecting → Bool
  | .inner .. => false
  | _ => true

def redirect (r : Running) (targets : List Target) (after : Redirecting) : Running :=
  match targets with
  | [] => r.redirected after
  | ⟨descriptor, .document word⟩ :: rest =>
    r.expand do return .document descriptor (← Expand.tried (Expand.document word)) rest after
  | ⟨descriptor, .file direction path⟩ :: rest =>
    r.redirectBy (Act.leadToFile (keeps after) descriptor direction path) rest after
  | ⟨descriptor, .descriptor other⟩ :: rest =>
    r.redirectBy (Act.leadToDescriptor (keeps after) descriptor other) rest after

def useDocument (r : Running) (descriptor : Nat) (text : Except String (List Char))
    (rest : List Target) (after : Redirecting) : Running :=
  match text with
  | .ok text => r.redirectBy (Act.leadToText (keeps after) descriptor text) rest after
  | .error message => r.redirectBy (Act.refuse message) rest after

/-! ### Other commands -/

def runSubshell (r : Running) (mode : Mode) (background : Bool) (targets : List Target)
    (body : Command) : Running :=
  let control := fun (tested : Bool) =>
    Control.redirect targets (.inner { tested, last := true } body)
  if background then
    let (r, nothing) := (r.check mode).openFile .null
    let (r, id) := r.fork true (control false) (·.connect 0 nothing)
    r.leaveJob [id]
  else if mode.last && !r.state.hasActions then
    let jobs := r.state.jobs
    let r := r.update fun p =>
      { p with state := { p.state.forked with jobs }, frames := [] }
    r.go (control mode.tested)
  else (r.check mode).forkAndWait (control mode.tested)

def useWords (r : Running) : Expanded → Running
  | .invocation mode assignments i => r.prepare mode assignments i
  | .assigned mode i trace => (r.tell i trace).execute mode i
  | .texts mode name texts body =>
    let r := r.change fun s => { s with loops := s.loops + 1 }
    r.nextText name texts body mode 0
  | .chosen mode command =>
    match command with
    | .nothing => r.finish 0
    | command => r.run command mode
  | .redirected mode targets body =>
    (r.change State.enterRedirected).go (.redirect targets (.compound mode body))
  | .document descriptor text rest after => r.useDocument descriptor text rest after
  | .subshell mode background targets body => r.runSubshell mode background targets body

def useDialogue (r : Running) : Dialogue Expanded → Running
  | .done s result => (r.change fun old => { s with caught := old.caught }).useWords result
  | .fault s message => (r.change fun old => { s with caught := old.caught }).refuse message
  | .death s signal =>
    (r.change fun old => { s with caught := old.caught }).go (.over (.killed signal))
  | .paths s pattern resume =>
    let files := { r.world.files with here := s.here }
    r.useDialogue (resume (Sign.paths files pattern))
  | .output s command resume =>
    let r := r.change fun old => { s with caught := old.caught }
    match command with
    | .nothing => r.go (.expand (resume r.state [] r.state.outputStatus))
    | command => r.startOutput command resume

end SnippetLens.Shell.Running
