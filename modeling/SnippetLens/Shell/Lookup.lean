import SnippetLens.Shell.Builtin
import SnippetLens.Shell.Session
import SnippetLens.Toolchain.Environment

/-!
What the name of a command stands for: a command of the shell, a function, or a program, which is
looked for in the directories of the search path. Where a program was found is remembered.
-/

namespace SnippetLens.Shell

open Files

inductive Meaning where
  | builtin (builtin : Builtin)
  | function (body : Command)
  /-- A program, and how many directories were searched before; none were if the name is a path. -/
  | program (index : Option Nat)
  | unknown
  deriving Inhabited

def usualSearchPath : List Char :=
  "/usr/local/sbin:/usr/local/bin:/usr/sbin:/usr/bin:/sbin:/bin".toList

def candidates (searchPath : Option (List Char)) (name : Name) : List (List Char) :=
  match searchPath with
  | none => []
  | some searchPath =>
    (Toolchain.Environment.splitColons searchPath).map fun directory =>
      if directory.isEmpty then name else directory ++ '/' :: name

namespace State

def searchPath (s : State) : Option (List Char) :=
  s.get? "PATH".toList

def meaning? (s : State) (skipsFunctions : Bool) (name : Name) : Option Meaning :=
  match Builtin.ofName? name, if skipsFunctions then none else s.function? name with
  | some builtin, none => some (.builtin builtin)
  | some builtin, some body => some (if builtin.isSpecial then .builtin builtin else .function body)
  | none, some body => some (.function body)
  | none, none => none

def rememberFound (s : State) (name : Name) (index : Nat) : State :=
  if s.found.any (·.name = name) then
    { s with found := s.found.map fun f => if f.name = name then ⟨name, index, false⟩ else f }
  else { s with found := s.found ++ [⟨name, index, false⟩] }

def forgetFound (s : State) (name : Name) : State :=
  { s with found := s.found.filter (·.name ≠ name) }

end State

namespace Act

def firstProgram (files : FileTree) (paths : List (List Char)) : Option Nat :=
  paths.findIdx? fun path => files.isProgram (pathOf path)

/-- Where a program is found among paths after the shell has moved, if it was found at some place
before. Paths up to there that start at the root lead where they led. -/
def foundAgain (files : FileTree) (index : Nat) (paths : List (List Char)) : Option Nat :=
  let isFixed := fun (path : List Char) => path.head? = some '/'
  (paths.zipIdx.find? fun (path, i) =>
    if isFixed path && i ≤ index then i = index else files.isProgram (pathOf path)).map (·.2)

def searchProgram (name : Name) : Act (Option Nat) := do
  let s ← state
  let files ← files
  let paths := candidates s.searchPath name
  let found := match s.found.find? (·.name = name) with
    | none => firstProgram files paths
    | some f => if f.isOld then foundAgain files f.index paths else some f.index
  match found with
  | some index => change (·.rememberFound name index)
  | none => change (·.forgetFound name)
  return found

/-- What the name of a command stands for. Another search path than that of the shell may be
given. -/
def lookUp (name : Name) (skipsFunctions : Bool) (searchPath : Option (List Char)) :
    Act Meaning := do
  if name.contains '/' then return .program none
  else
    match (← state).meaning? skipsFunctions name with
    | some meaning => return meaning
    | none =>
      let found ← match searchPath with
        | none => searchProgram name
        | some path => pure (firstProgram (← files) (candidates (some path) name))
      match found with
      | some index => return .program (some index)
      | none => return .unknown

def whyUnknown (name : Name) (searchPath : Option (List Char)) : Act String := do
  let paths := candidates (searchPath <|> (← state).searchPath) name
  let files ← files
  return if paths.any fun path => files.reaches (pathOf path) then "Permission denied"
    else "not found"

end Act

end SnippetLens.Shell
