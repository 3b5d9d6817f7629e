import SnippetLens.Shell.Builtin.Options

/-!
The commands that leave something: the shell, loops, or what is run as a function.
-/

namespace SnippetLens.Shell.Builtin

def exit (arguments : List (List Char)) : Act Nat := do
  match arguments with
  | [] => pure ()
  | argument :: _ =>
    let status ← Act.countOf argument
    Act.change fun s => { s with heldStatus := some status }
  throw .exit

/-- Ends so many of the loops around the command, or starts the next round of the last one of
these. -/
def leaveLoops (again : Bool) (arguments : List (List Char)) : Act Nat := do
  let n ← match arguments with
    | [] => pure 1
    | argument :: _ => do
      let n ← Act.countOf argument
      if n = 0 then Act.refuse (State.illegalNumber argument) else pure n
  let count := min n (← Act.state).loops
  if 0 < count then Act.change fun s => { s with skip := some (.loops count again) }
  return 0

/-- Leaves a function or a file, with an answer of its own or that of the last command. -/
def leaveFunction (arguments : List (List Char)) : Act Nat := do
  let status ← match arguments with
    | [] => pure (← Act.state).status
    | argument :: _ => Act.countOf argument
  Act.change fun s => { s with skip := some (.function !arguments.isEmpty) }
  return status

end SnippetLens.Shell.Builtin
