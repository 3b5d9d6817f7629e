import SnippetLens.Shell.Execution

/-!
One step of a process.
-/

namespace SnippetLens.Shell.Running

def await (r : Running) (job : Nat) : Running :=
  let wait := do
    let status ← Act.await job false
    Act.forgetJob job
    return status
  r.after wait true fun r status => r.finish status

def load (r : Running) (file : Option Nat) : Running :=
  let content := match file with
    | none => pure []
    | some number => Act.readFrom true number
  r.after content true fun r content => r.runText content true {}

def step (r : Running) : Running :=
  match r.process.control with
  | .run command mode =>
    let isEmpty := match command with
      | .nothing => true
      | _ => false
    if r.mustAttend && !isEmpty && !r.state.has .onlyReads then r.attendFirst (.run command mode)
    else r.start command mode
  | .done status => r.answer status
  | .expand dialogue => r.useDialogue dialogue
  | .call builtin arguments isSpecial => r.call builtin arguments isSpecial
  | .await job => r.await job
  | .collect descriptor job read isRead resume => r.collect descriptor job read isRead resume
  | .redirect targets after => r.redirect targets after
  | .load file => r.load file
  | .replace words searchPath index => r.replace words searchPath index
  | .giveUp cause => r.giveUpFrames cause r.process.frames
  | .over _ => r

end SnippetLens.Shell.Running
