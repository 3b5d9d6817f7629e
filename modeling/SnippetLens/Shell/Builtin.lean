import SnippetLens.Shell.Script

/-!
The commands that a shell carries out itself.
-/

namespace SnippetLens.Shell

structure Builtin where
  name : String
  /-- A fault of it ends the shell, and the assignments before it stay. -/
  isSpecial : Bool := false
  /-- Its arguments may be assignments, whose values are not split. -/
  assigns : Bool := false
  deriving DecidableEq, Repr

namespace Builtin

def all : List Builtin :=
  let special := fun (name : String) => Builtin.mk name true false
  let usual := fun (name : String) => Builtin.mk name false false
  [".", ":", "break", "continue", "eval", "exec", "exit", "return", "set", "shift", "times", "trap",
    "unset"].map special ++
  [⟨"export", true, true⟩, ⟨"local", true, true⟩, ⟨"readonly", true, true⟩,
    ⟨"alias", false, true⟩] ++
  ["[", "bg", "cd", "chdir", "command", "echo", "false", "fg", "getopts", "hash", "jobs", "kill",
    "printf", "pwd", "read", "test", "true", "type", "ulimit", "umask", "unalias", "wait"].map usual

def ofName? (name : Name) : Option Builtin :=
  all.find? fun b => b.name.toList = name

def isSpecialName (name : Name) : Bool :=
  (ofName? name).any (·.isSpecial)

end Builtin

end SnippetLens.Shell
