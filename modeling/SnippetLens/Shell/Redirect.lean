import SnippetLens.Shell.Expansion
import SnippetLens.Shell.Session

/-!
Redirections: what a descriptor leads to while a command runs.
-/

namespace SnippetLens.Shell

open Files

/-- Where a redirection leads when its word is expanded. A document is expanded only when it is its
turn. -/
inductive Goal where
  | file (direction : Direction) (path : List Char)
  | document (word : Word)
  /-- What another descriptor leads to, or nowhere. -/
  | descriptor (other : Option Nat)

structure Target where
  descriptor : Nat
  goal : Goal

namespace Expand

/-- The descriptor that the word of a redirection names; none if it says that there is none. -/
def descriptorNamed (text : List Char) : Expand (Option Nat) := do
  match text with
  | ['-'] => return none
  | [c] => if c.isDigit then return some (c.toNat - '0'.toNat) else bad
  | _ => bad
where
  bad : Expand (Option Nat) := do
    change fun s => { s with line := s.readTo }
    refuse (Fault.message .descriptor)

def target : Redirection → Expand Target
  | .mk descriptor direction word => do
    match direction with
    | .document => return ⟨descriptor, .document word⟩
    | .duplicate => return ⟨descriptor, .descriptor (← descriptorNamed (← text word))⟩
    | direction => return ⟨descriptor, .file direction (← text word)⟩

def targets : List Redirection → Expand (List Target)
  | [] => return []
  | r :: rest => do return (← target r) :: (← targets rest)

end Expand

namespace Act

def openFile (file : OpenFile) : Act Nat := do
  let (number, world) := (← get).world.addFile file
  modify fun s => { s with world }
  return number

def descriptorAt? (path : List Char) : Option Nat :=
  match String.ofList path with
  | "/dev/stdin" => some 0
  | "/dev/stdout" => some 1
  | "/dev/stderr" => some 2
  | _ =>
    if "/dev/fd/".toList.isPrefixOf path then
      match path.drop 8 with
      | [c] => if c.isDigit then some (c.toNat - '0'.toNat) else none
      | _ => none
    else none

def knownFile? (path : List Char) : Act (Option Nat) := do
  match descriptorAt? path with
  | some descriptor => return (← state).file? descriptor
  | none => return none

def fileAt (place : Place) (atEnd reads writes : Bool) : Node → OpenFile
  | .nullDevice => .null
  | .interpreter | .link _ => .given []
  | .file .. | .directory => .stored place 0 atEnd reads writes

def openToRead (path : List Char) : Act Nat := do
  match ← knownFile? path with
  | some number => return number
  | none =>
    let files ← files
    let found := do
      let place ← files.locate (pathOf path)
      return (place, ← files.status (pathOf path))
    match found with
    | .ok (place, node) => openFile (fileAt place false true false node)
    | .error cause =>
      let why := match cause with
        | .notFound | .notDirectory => "No such file"
        | cause => cause.reason
      refuse ("cannot open " ++ Text.Octets.toText path ++ ": " ++ why)

def openToWrite (path : List Char) (empties atEnd reads mustBeNew : Bool) : Act Nat := do
  match ← knownFile? path with
  | some number => return number
  | none =>
    let files ← files
    let p := pathOf path
    let made := do
      if mustBeNew && files.isFile p then throw Failure.exists
      let after ← if empties || !files.reaches p then files.write p []
        else if files.isDirectory p then .error .isDirectory
        else pure files
      return (after, ← after.locate p, ← after.status p)
    match made with
    | .ok (after, place, node) =>
      setFiles after
      openFile (fileAt place atEnd reads true node)
    | .error cause =>
      let why := match cause with
        | .notFound | .notDirectory => "Directory nonexistent"
        | cause => cause.reason
      refuse ("cannot create " ++ Text.Octets.toText path ++ ": " ++ why)

/-- Makes a descriptor lead to an open file, or nowhere. What it led to is kept if it is to be given
back. -/
def lead (keeps : Bool) (descriptor : Nat) (file : Option Nat) : Act Unit := do
  if keeps then change (·.keep descriptor)
  match file with
  | some file => change (·.connect descriptor file)
  | none => change (·.disconnect descriptor)

def openAs (direction : Direction) (path : List Char) : Act Nat := do
  match direction with
  | .write => openToWrite path true false false ((← state).has .keepsFiles)
  | .overwrite => openToWrite path true false false false
  | .append => openToWrite path false true false false
  | .readWrite => openToWrite path false false true false
  | .read | .duplicate | .document => openToRead path

def leadToText (keeps : Bool) (descriptor : Nat) (text : List Char) : Act Unit := do
  lead keeps descriptor (← openFile (.given text))

def leadToFile (keeps : Bool) (descriptor : Nat) (direction : Direction) (path : List Char) :
    Act Unit := do
  lead keeps descriptor (← openAs direction path)

/-- Makes a descriptor lead where another one leads, or nowhere. One that is to lead where it leads
already stays as it is. -/
def leadToDescriptor (keeps : Bool) (descriptor : Nat) (other : Option Nat) : Act Unit := do
  match other with
  | none => lead keeps descriptor none
  | some other =>
    if other ≠ descriptor then
      match (← state).file? other with
      | some file => lead keeps descriptor file
      | none =>
        if keeps then change (·.keep descriptor)
        refuse (toString other ++ ": Bad file descriptor")

def settle : Act Unit := do
  let numbers ← openFiles
  modify fun s => { s with world := s.world.settle numbers }

end Act

end SnippetLens.Shell
