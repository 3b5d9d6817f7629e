import SnippetLens.Shell.Builtin.Options
import SnippetLens.Shell.Lookup

/-!
Going to directories. A shell has a name for the directory it is in, which keeps the links on the
way to it; going up drops the last part of that name. It can also go where the links lead.
-/

namespace SnippetLens.Shell.Builtin

open Files

def isPhysical (options : List (Char × List Char)) : Bool :=
  options.getLast?.any (·.1 = 'P')

/-- What a directory is called that a path leads to from another one. Two slashes at the start stay
two. -/
def directoryName (directory target : List Char) : List Char :=
  let isDouble := fun (cs : List Char) => (cs.takeWhile (· = '/')).length = 2
  let isAbsolute := target.head? = some '/'
  let start := if isAbsolute then [] else (FilePath.splitNames directory).filter (!·.isEmpty)
  let root := if isDouble (if isAbsolute then target else directory) then ['/', '/'] else ['/']
  let go := fun (names : List (List Char)) (name : List Char) =>
    if name.isEmpty || name = ['.'] then names
    else if name = ['.', '.'] then names.dropLast
    else names ++ [name]
  root ++ ['/'].intercalate ((FilePath.splitNames target).foldl go start)

def enterDirectory (place : Place) (name : List Char) (keepsOld : Bool) : Act Unit := do
  let old := (← Act.state).directory
  if keepsOld then Act.attempt (·.put "OLDPWD".toList old true)
  Act.change fun s => { s with here := place, directory := name }
  Act.attempt (·.put "PWD".toList name true)

def goTo (physical : Bool) (target : List Char) : Act Bool := do
  let files ← Act.files
  let name := directoryName (← Act.state).directory target
  let path := if physical then target else name
  match files.locate (pathOf path) with
  | .error _ => return false
  | .ok place =>
    if files.find? place ≠ some .directory then return false
    else
      let name := if physical then Text.Octets.ofText (Place.path place).text else name
      enterDirectory place name true
      Act.change fun s => { s with found := s.found.map fun f => { f with isOld := true } }
      return true

/-- Whether a path says itself where it starts, so that it is not looked for anywhere. -/
def isAnchored (target : List Char) : Bool :=
  match FilePath.splitNames target with
  | first :: rest => first.isEmpty && !rest.isEmpty || first = ['.'] || first = ['.', '.']
  | [] => false

def lookForDirectory (files : FileTree) (target : List Char) :
    List (List Char) → Option (List Char × Bool)
  | [] => none
  | start :: rest =>
    let path := if start.isEmpty then target else start ++ '/' :: target
    if files.isDirectory (pathOf path) then some (path, !start.isEmpty)
    else lookForDirectory files target rest

def cd (arguments : List (List Char)) : Act Nat := do
  let (options, arguments) ← Options.of [('L', false), ('P', false)] arguments
  let s ← Act.state
  let goesBack := arguments.head? = some ['-']
  let named := match arguments with
    | [] => s.get "HOME"
    | target :: _ => if goesBack then s.get "OLDPWD" else target
  let target := if named.isEmpty then ['.'] else named
  let starts := match s.get? "CDPATH".toList with
    | some cs => Toolchain.Environment.splitColons cs
    | none => []
  let files ← Act.files
  let found := if isAnchored named then none else lookForDirectory files target starts
  let (path, isTold) := found.getD (target, false)
  if ← goTo (isPhysical options) path then
    if goesBack || isTold then Act.put ((← Act.state).directory ++ ['\n'])
    return 0
  else Act.refuse ("can't cd to " ++ Text.Octets.toText target)

def pwd (arguments : List (List Char)) : Act Nat := do
  let (options, _) ← Options.of [('L', false), ('P', false)] arguments
  let s ← Act.state
  let name := if isPhysical options then Text.Octets.ofText (Place.path s.here).text
    else s.directory
  Act.put (name ++ ['\n'])
  return 0

end SnippetLens.Shell.Builtin
