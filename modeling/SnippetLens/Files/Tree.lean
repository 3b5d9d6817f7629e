import SnippetLens.Files.Failure
import SnippetLens.Files.FilePath

/-!
The file tree, as a process sees it from its working directory, and where a path leads in it.

A place in the tree is the list of the names that lead to it, innermost first; the root has no
names and is always a directory. Following a path reads its steps one after another: two dots go
up, a link is replaced by the steps of its target, and no more than forty links are followed.
-/

namespace SnippetLens.Files

/-- A place in the tree: the names that lead to it, innermost first. -/
abbrev Place := List String

def Place.path (place : Place) : FilePath :=
  if place.isEmpty then ⟨"/"⟩
  else ⟨String.join (place.reverse.map fun name => "/" ++ name)⟩

inductive Node where
  | file (content : List UInt8) (executable : Bool)
  | directory
  | link (target : FilePath)
  /-- Takes what is written to it, and is empty when it is read. -/
  | nullDevice
  /-- The program that runs scripts. -/
  | interpreter
  deriving DecidableEq, Repr

/-- A file tree and a working directory in it. The nodes stand in the order in which a
directory lists them. -/
structure FileTree where
  nodes : List (Place × Node)
  here : Place
  deriving DecidableEq, Repr

namespace FileTree

def find? (t : FileTree) (place : Place) : Option Node :=
  if place.isEmpty then some .directory
  else (t.nodes.find? fun entry => entry.1 = place).map (·.2)

def namesIn (t : FileTree) (place : Place) : List String :=
  t.nodes.filterMap fun entry =>
    match entry.1 with
    | [] => none
    | name :: above => if above = place then some name else none

def maxName : Nat := 255

def maxPath : Nat := 4096

def maxLinks : Nat := 40

/-- Where the steps lead from a directory. The last step may lead to nothing; a link at the end
is followed if `follow` says so, or if more is asked of it. -/
def walk (t : FileTree) (follow : Bool) (links : Nat) (place : Place) (steps : List String) :
    Except Failure Place :=
  match steps with
  | [] => .ok place
  | name :: rest =>
    if name = "." then walk t follow links place rest
    else if name = ".." then walk t follow links place.tail rest
    else if maxName < name.utf8ByteSize then .error .nameTooLong
    else
      match t.find? (name :: place) with
      | none => if rest.isEmpty then .ok (name :: place) else .error .notFound
      | some .directory => walk t follow links (name :: place) rest
      | some (.link target) =>
        if rest.isEmpty && !follow then .ok (name :: place)
        else
          match links with
          | 0 => .error .tooManyLinks
          | links + 1 =>
            if target.text.isEmpty then .error .notFound
            else
              walk t follow links (if target.isAbsolute then [] else place)
                (target.steps ++ rest)
      | some _ => if rest.isEmpty then .ok (name :: place) else .error .notDirectory
termination_by (links, steps.length)

/-- Where a path leads. The directory above that place exists. -/
def locate (t : FileTree) (p : FilePath) (follow : Bool := true) : Except Failure Place :=
  if p.text.toList.contains '\x00' then .error .zeroInPath
  else if p.text.isEmpty then .error .notFound
  else if maxPath ≤ p.text.utf8ByteSize then .error .nameTooLong
  else if p.isAbsolute then t.walk follow maxLinks [] p.steps
  else if t.find? t.here = some .directory then t.walk follow maxLinks t.here p.steps
  else .error .notFound

theorem locate_of_isAbsolute (t : FileTree) {p : FilePath} (h : p.isAbsolute)
    (hzero : '\x00' ∉ p.text.toList) (hshort : p.text.utf8ByteSize < maxPath) (follow : Bool) :
    t.locate p follow = t.walk follow maxLinks [] p.steps := by
  have hempty : p.text.isEmpty = false := by
    cases htext : p.text.isEmpty with
    | false => rfl
    | true =>
      have htext : p.text = "" := String.isEmpty_iff.1 htext
      simp [FilePath.isAbsolute, htext, Text.startsWith] at h
  have hlong : ¬maxPath ≤ p.text.utf8ByteSize := by omega
  simp [locate, hzero, hempty, hlong, h]

def status (t : FileTree) (p : FilePath) : Except Failure Node := do
  match t.find? (← t.locate p) with
  | some node => return node
  | none => .error .notFound

def reaches (t : FileTree) (p : FilePath) : Bool :=
  (t.status p).toBool

def isFile (t : FileTree) (p : FilePath) : Bool :=
  match t.status p with
  | .ok (.file ..) | .ok .interpreter => true
  | _ => false

def isDirectory (t : FileTree) (p : FilePath) : Bool :=
  match t.status p with
  | .ok .directory => true
  | _ => false

def isProgram (t : FileTree) (p : FilePath) : Bool :=
  match t.status p with
  | .ok (.file _ executable) => executable
  | .ok .interpreter => true
  | _ => false

/-- The path from the root, without links, to what a path leads to. -/
def canonical (t : FileTree) (p : FilePath) : Except Failure FilePath := do
  let place ← t.locate p
  match t.find? place with
  | some _ => return place.path
  | none => .error .notFound

def workingDirectory (t : FileTree) : Except Failure FilePath :=
  if t.find? t.here = some .directory then .ok (Place.path t.here) else .error .notFound

end FileTree

end SnippetLens.Files
