import SnippetLens.Shell.Paths
import SnippetLens.Shell.Running

/-!
Starting commands. The words of a command are expanded first; what they say decides what runs.
-/

namespace SnippetLens.Shell.Running

def atLine (r : Running) (line : Nat) : Running :=
  r.change fun s => { s with line }

def expand (r : Running) (e : Expand Expanded) : Running :=
  r.go (.expand (e r.state))

/-- A command that must not fail where commands must not, unless somebody asks whether it does. -/
def check (r : Running) (mode : Mode) : Running :=
  if mode.tested then r else r.push .checked

def chosen (mode : Mode) (subject : List Char) :
    List (List Word × Command) → Expand Expanded
  | [] => return .chosen mode .nothing
  | (patterns, body) :: arms => do
    if ← takes patterns then return .chosen mode body else chosen mode subject arms
where
  takes : List Word → Expand Bool
    | [] => return false
    | w :: ws => do
      if Sign.matchesAll (← Expand.pattern w) subject then return true else takes ws

def start (r : Running) (command : Command) (mode : Mode) : Running :=
  let r := if mode.last then r.push .last else r
  if r.state.has .onlyReads then r.go (.done 0)
  else
    match command with
    | .nothing => r.go (.done 0)
    | .simple line assignments words redirections =>
      ((r.check mode).atLine line).expand do
        return .invocation mode assignments (← Expand.invocation words redirections)
    | .sequence first second => (r.push (.second .always second mode)).run first mode.inner
    | .both first second =>
      (r.push (.second .ifOk second mode)).run first { mode.inner with tested := true }
    | .either first second =>
      (r.push (.second .ifFailed second mode)).run first { mode.inner with tested := true }
    | .negation body => (r.push .negation).run body .asked
    | .pipe background parts => (r.check mode).startPipe background mode parts
    | .conditional test yes no => (r.push (.branch yes no mode)).run test .asked
    | .loop expected test body =>
      let r := r.change fun s => { s with loops := s.loops + 1 }
      (r.push (.test expected test body mode.inner 0)).run test .asked
    | .each line name words body =>
      (r.atLine line).expand do
        let texts ← match words with
          | some words => Expand.allFields words
          | none => do pure (← Expand.state).arguments
        return .texts mode.inner name texts body
    | .choice line subject arms =>
      (r.atLine line).expand do chosen mode (← Expand.text subject) arms
    | .subshell background line body redirections =>
      (r.atLine line).expand do
        return .subshell mode background (← Expand.targets redirections) body
    | .function name body =>
      let r := r.change fun s =>
        { s.forgetFound name with functions := (name, body) :: s.functions.filter (·.1 ≠ name) }
      r.finish 0
    | .redirected line body redirections =>
      (r.atLine line).expand do return .redirected mode (← Expand.targets redirections) body

end SnippetLens.Shell.Running
