import SnippetLens.Shell.Builtin.Directory
import SnippetLens.Shell.Builtin.Job
import SnippetLens.Shell.Builtin.Leaving
import SnippetLens.Shell.Builtin.Line
import SnippetLens.Shell.Builtin.Meaning
import SnippetLens.Shell.Builtin.Output
import SnippetLens.Shell.Builtin.Permission

/-!
Calling the commands of the shell by their names.
-/

namespace SnippetLens.Shell.Builtin

/-- Carries out the command with a name, other than those that run commands themselves. -/
def carryOut (name : String) (arguments : List (List Char)) : Act Nat :=
  match name with
  | "[" => bracket arguments
  | "alias" => makeAliases arguments
  | "bg" | "fg" => resume arguments
  | "break" => leaveLoops false arguments
  | "cd" | "chdir" => cd arguments
  | "command" => command arguments
  | "continue" => leaveLoops true arguments
  | "echo" => echo arguments
  | "exit" => exit arguments
  | "export" => markVariables "export " true arguments
  | "false" => return 1
  | "getopts" => getopts arguments
  | "hash" => hash arguments
  | "jobs" => jobs arguments
  | "kill" => kill arguments
  | "local" => makeLocal arguments
  | "printf" => printf arguments
  | "pwd" => pwd arguments
  | "read" => read arguments
  | "readonly" => markVariables "readonly " false arguments
  | "return" => leaveFunction arguments
  | "set" => set arguments
  | "shift" => shift arguments
  | "test" => test arguments
  | "times" => times
  | "trap" => trap arguments
  | "type" => type arguments
  | "ulimit" => ulimit arguments
  | "umask" => umask arguments
  | "unalias" => dropAliases arguments
  | "unset" => unset arguments
  | "wait" => wait arguments
  | _ => return 0

def call (b : Builtin) (arguments : List (List Char)) : Act Nat := do
  let status ← carryOut b.name arguments
  if ← Act.flush then return status
  else
    Act.complain (b.name ++ ": I/O error")
    return status ||| 1

end SnippetLens.Shell.Builtin
