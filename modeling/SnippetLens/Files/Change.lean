import SnippetLens.Files.Access

/-!
What became of a file tree, told as the changes that lead from the tree before to the tree after.

A run of the program works on a tree of its own; the changes are what is left to do on the disk.
They name only what differs, so a run that leaves its tree alone leaves the disk alone.
-/

namespace SnippetLens.Files

inductive Change where
  /-- Nothing stands at the place any more. -/
  | removed (place : Place)
  | madeDirectory (place : Place)
  | wroteFile (place : Place) (content : List UInt8)
  deriving DecidableEq, Repr

/-- How a node came to stand at a place, as far as the disk can show it. -/
def Change.ofNode (place : Place) : Node → Option Change
  | .directory => some (.madeDirectory place)
  | .file content _ => some (.wroteFile place content)
  | .link _ | .nullDevice | .interpreter => none

namespace FileTree

def beyond (t other : FileTree) : List (Place × Node) :=
  t.nodes.filter fun entry => other.find? entry.1 ≠ some entry.2

/-- The changes from one tree to another: first what is gone, innermost first, and then what is new,
in the order in which it came. -/
def changesTo (before after : FileTree) : List Change :=
  let gone := (before.beyond after).filter fun entry => after.find? entry.1 = none
  (gone.reverse.map fun entry => .removed entry.1) ++
    (after.beyond before).filterMap fun entry => Change.ofNode entry.1 entry.2

end FileTree

end SnippetLens.Files
