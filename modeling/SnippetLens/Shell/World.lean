import SnippetLens.Files.Access
import SnippetLens.Shell.Job
import SnippetLens.Text.Octets
import SnippetLens.Tool.Capture

/-!
What the shells of a script share: the file tree, the files that are open, the pipes between them,
and the processes that are over and were not asked about.
-/

namespace SnippetLens.Shell

open Files Tool

structure Pipe where
  ready : List Char := []
  /-- What was written after that, last piece first. -/
  arriving : List (List Char) := []
  deriving DecidableEq, Repr

namespace Pipe

def content (p : Pipe) : List Char :=
  match p.arriving with
  | [] => p.ready
  | arriving => p.ready ++ arriving.reverse.flatten

def write (p : Pipe) (cs : List Char) : Pipe :=
  { p with arriving := cs :: p.arriving }

end Pipe

inductive OpenFile where
  /-- A stream that is watched from outside. -/
  | stream (stream : Stream)
  /-- An end of a pipe. -/
  | reader (pipe : Nat)
  | writer (pipe : Nat)
  /-- What is still to be read of a text. -/
  | given (rest : List Char)
  /-- A file, where in it the next byte is read or written, whether at its end, and what may be
  done. -/
  | stored (place : Place) (offset : Nat) (atEnd reads writes : Bool)
  | null
  deriving DecidableEq, Repr

structure World where
  files : FileTree
  opened : List (Nat × OpenFile)
  pipes : List (Nat × Pipe) := []
  /-- What arrived at the streams that are watched, last first. -/
  arrivals : List Arrival := []
  /-- The number of the next process. -/
  nextProcess : Nat
  /-- The signals that were sent to processes, first one first. -/
  sent : List (Nat × Signal) := []
  /-- The processes that are over, with those that started them, the first one first. -/
  ended : List (Nat × Nat × Outcome) := []

inductive Written where
  | done (w : World)
  /-- Nothing can be written there. -/
  | refused
  /-- Nobody reads it any more. -/
  | broken

inductive Received where
  | text (cs : List Char) (w : World)
  | refused
  /-- There is nothing yet. -/
  | later

namespace World

def file? (w : World) (number : Nat) : Option OpenFile :=
  (w.opened.find? (·.1 = number)).map (·.2)

def setFile (w : World) (number : Nat) (file : OpenFile) : World :=
  { w with opened := (number, file) :: w.opened.filter (·.1 ≠ number) }

def addFile (w : World) (file : OpenFile) : Nat × World :=
  let number := (w.opened.map (·.1)).foldl max 0 + 1
  (number, w.setFile number file)

def pipe (w : World) (number : Nat) : Pipe :=
  ((w.pipes.find? (·.1 = number)).map (·.2)).getD {}

def setPipe (w : World) (number : Nat) (pipe : Pipe) : World :=
  { w with pipes := (number, pipe) :: w.pipes.filter (·.1 ≠ number) }

/-- The world with one more pipe: the numbers of the files to read from and to write to. -/
def addPipe (w : World) : Nat × Nat × World :=
  let pipe := (w.pipes.map (·.1)).foldl max 0 + 1
  let (reader, w) := (w.setPipe pipe {}).addFile (.reader pipe)
  let (writer, w) := w.addFile (.writer pipe)
  (reader, writer, w)

def overwrite (content : List UInt8) (offset : Nat) (bytes : List UInt8) : List UInt8 :=
  content.take offset ++ List.replicate (offset - content.length) 0 ++ bytes ++
    content.drop (offset + bytes.length)

def write (w : World) (isRead : Nat → Bool) (number : Nat) (cs : List Char) : Written :=
  match w.file? number with
  | some (.stream s) =>
    .done { w with arrivals := .bytes s (Text.Octets.toBytes cs) :: w.arrivals }
  | some (.writer pipe) =>
    if isRead pipe then .done (w.setPipe pipe ((w.pipe pipe).write cs)) else .broken
  | some (.stored place offset atEnd reads true) =>
    match w.files.find? place with
    | some (.file content executable) =>
      let start := if atEnd then content.length else offset
      let bytes := Text.Octets.toBytes cs
      let files := w.files.put place (.file (overwrite content start bytes) executable)
      .done ({ w with files }.setFile number
        (.stored place (start + bytes.length) atEnd reads true))
    | _ => .done w
  | some .null => .done w
  | some (.given _) | some (.reader _) | some (.stored ..) | none => .refused

def firstLine (cs : List Char) : List Char :=
  let line := cs.takeWhile (· ≠ '\n')
  line ++ (cs.drop line.length).take 1

def firstLines : Nat → List Char → List Char
  | 0, _ => []
  | n + 1, cs =>
    let line := firstLine cs
    line ++ firstLines n (cs.drop line.length)

/-- Reads a line from an open file, or all there is. Whether anybody can still write to a pipe tells
`isWritten`; as long as that is so there may be more to come. -/
def read (w : World) (isWritten : Nat → Bool) (whole : Bool) (number : Nat) : Received :=
  let cut := fun (cs : List Char) => if whole then cs else firstLine cs
  match w.file? number with
  | some (.given rest) =>
    let taken := cut rest
    .text taken (w.setFile number (.given (rest.drop taken.length)))
  | some (.stored place offset atEnd true writes) =>
    match w.files.find? place with
    | some (.file content _) =>
      let taken := cut (Text.Octets.ofBytes (content.drop offset))
      .text taken (w.setFile number (.stored place (offset + taken.length) atEnd true writes))
    | some .directory => .refused
    | _ => .text [] w
  | some (.reader pipe) =>
    let content := (w.pipe pipe).content
    let taken := cut content
    let complete := !whole && taken.getLast? = some '\n'
    if !complete && isWritten pipe then .later
    else .text taken (w.setPipe pipe ⟨content.drop taken.length, []⟩)
  | some .null => .text [] w
  | some (.stream _) | some (.writer _) | some (.stored ..) | none => .refused

/-- The world in which only the files with the given numbers stay open. A stream that is closed has
ended. -/
def settle (w : World) (numbers : List Nat) : World :=
  let (kept, gone) := w.opened.partition fun entry => numbers.contains entry.1
  let endings := gone.filterMap fun entry => match entry.2 with
    | .stream stream => some (Arrival.ended stream)
    | _ => none
  { w with opened := kept, arrivals := endings.reverse ++ w.arrivals }

def isWatched (w : World) : Bool :=
  w.opened.any fun entry => match entry.2 with
    | .stream _ => true
    | _ => false

def finish (w : World) (process parent : Nat) (outcome : Outcome) : World :=
  { w with ended := w.ended ++ [(process, parent, outcome)] }

/-- The process that ended first of those that a process started, and the world in which it was
asked about. -/
def reap? (w : World) (parent : Nat) : Option (Nat × Outcome × World) :=
  match w.ended.find? (·.2.1 = parent) with
  | none => none
  | some (process, _, outcome) =>
    some (process, outcome, { w with ended := w.ended.filter (·.1 ≠ process) })

end World

end SnippetLens.Shell
