import SnippetLens.Shell.Pattern
import SnippetLens.Shell.State

/-!
Patterns as paths. A pattern stands for the paths that it takes, in their order; what is between two
slashes is a pattern of its own, and a name that starts with a dot is taken only by a pattern that
starts with one.
-/

namespace SnippetLens.Shell

open Files

namespace Sign

/-- The parts of a pattern between slashes. A backslash before a slash takes nothing from it. -/
def components : List Marked → List (List Marked)
  | [] => [[]]
  | ⟨'\\', true⟩ :: ⟨'/', active⟩ :: r => components (⟨'/', active⟩ :: r)
  | m :: r =>
    match components r with
    | [] => [[m]]
    | part :: parts => if m.char = '/' then [] :: part :: parts else (m :: part) :: parts

def stands (files : FileTree) (path : List Char) : Bool :=
  match files.locate (pathOf path) false with
  | .ok place => (files.find? place).isSome
  | .error _ => false

def namesTaken (files : FileTree) (directory : List Char) (signs : List Sign) :
    List (List Char) :=
  match files.list (pathOf (if directory.isEmpty then ['.'] else directory)) with
  | .error _ => []
  | .ok names =>
    (['.'] :: ['.', '.'] :: names.map Text.Octets.ofText).filter fun name =>
      matchesAll signs name && (name.head? ≠ some '.' || signs.head? = some (only '.'))

def pathsFrom (files : FileTree) (start : List Char) : List (List Marked) → List (List Char)
  | [] => [start]
  | part :: rest =>
    let signs := pattern part
    let after := fun (name : List Char) =>
      if rest.isEmpty then [start ++ name] else pathsFrom files (start ++ name ++ ['/']) rest
    if isOpen signs then (namesTaken files start signs).flatMap after
    else
      let name := part.map (·.char)
      if rest.isEmpty && !stands files (start ++ name) then [] else after name

def paths (files : FileTree) (cs : List Marked) : List (List Char) :=
  (pathsFrom files [] (components cs)).mergeSort fun a b => String.ofList a ≤ String.ofList b

end Sign

end SnippetLens.Shell
