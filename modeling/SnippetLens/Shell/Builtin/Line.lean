import SnippetLens.Shell.Builtin.Variable
import SnippetLens.Shell.Expansion

/-!
Reading a line and giving its parts to variables. A backslash takes the meaning from the character
after it, and joins the line to the next one where it stands at its end.
-/

namespace SnippetLens.Shell

inductive Stroke where
  | plain (c : Char)
  /-- A character after a backslash, which parts nothing. -/
  | escaped (c : Char)
  /-- Here the line is joined to the next one. -/
  | joint
  deriving DecidableEq, Repr

namespace Stroke

def ofLine : List Char → List Stroke × Bool
  | [] => ([], false)
  | ['\\'] => ([], true)
  | '\\' :: c :: r =>
    let (strokes, goesOn) := ofLine r
    (escaped c :: strokes, goesOn)
  | c :: r =>
    let (strokes, goesOn) := ofLine r
    (plain c :: strokes, goesOn)

end Stroke

structure Sharing where
  /-- The parts so far, last first. -/
  parts : List (List Char) := []
  /-- The part that is being read, last character first. -/
  current : List Char := []
  /-- How many variables have no part yet; the last one takes all the rest. -/
  left : Nat
  /-- How many characters of the rest count. -/
  cut : Option Nat := none
  /-- A blank has ended a part, so that a separator would only end it too. -/
  ended : Bool := false
  /-- What parts is passed over. -/
  passing : Bool := false

namespace Sharing

def isBlank (c : Char) : Bool :=
  c = ' ' || c = '\t' || c = '\n'

def take (separators : List Char) (s : Sharing) (c : Char) : Sharing :=
  let parts := separators.contains c
  let blank := parts && isBlank c
  match s.left with
  | 0 =>
    let cut := if blank then some (s.cut.getD s.current.length)
      else if parts && s.ended then s.cut
      else none
    { s with current := c :: s.current, cut, ended := if blank then s.ended else false }
  | left + 1 =>
    if !parts then { s with current := c :: s.current }
    else if s.current.isEmpty && blank then { s with ended := false }
    else if left = 0 then
      { s with
        left, cut := some s.current.length, current := c :: s.current, ended := blank }
    else
      { s with
        left, parts := s.current.reverse :: s.parts, current := [], ended := blank
        passing := true }

def step (separators : List Char) (s : Sharing) : Stroke → Sharing
  | .joint => { s with ended := false, passing := false }
  | .escaped c => { s with current := c :: s.current, ended := false, passing := false }
  | .plain c =>
    let parts := separators.contains c
    if s.passing && parts && (isBlank c || s.ended) then
      { s with ended := s.ended && isBlank c }
    else take separators { s with passing := false } c

def finish (s : Sharing) : List (List Char) :=
  let last := s.current.reverse
  let last := match s.cut with
    | some n => last.take n
    | none => last
  (if last.isEmpty then s.parts else last :: s.parts).reverse

end Sharing

def shareLine (separators : List Char) (count : Nat) (strokes : List Stroke) : List (List Char) :=
  (strokes.foldl (Sharing.step separators) { left := count }).finish

namespace Act

def readFrom (whole : Bool) (number : Nat) : Act (List Char) := do
  let s ← get
  let numbers ← openFiles
  let isWritten := fun pipe => numbers.any fun n => s.world.file? n = some (.writer pipe)
  match s.world.read isWritten whole number with
  | .text cs world =>
    set { s with world }
    return cs
  | .refused => return []
  | .later =>
    if s.state.caught.isEmpty then throw .later else return []

def readLine (descriptor : Nat) : Act (List Char) := do
  match (← state).file? descriptor with
  | none => return []
  | some number => readFrom false number

end Act

namespace Builtin

/-- A line that is read, and whether a line break ended it. As many lines as the number says may be
joined. -/
def gather (raw : Bool) : Nat → Act (List Stroke × Bool)
  | 0 => return ([], false)
  | n + 1 => do
    let line ← Act.readLine 0
    let complete := line.getLast? = some '\n'
    let body := (if complete then line.dropLast else line).filter (· ≠ '\x00')
    if raw then return (body.map .plain, complete)
    else
      let (strokes, goesOn) := Stroke.ofLine body
      if goesOn && complete then
        let (rest, complete) ← gather raw n
        return (strokes ++ .joint :: rest, complete)
      else return (strokes, complete)

def assignParts : List Name → List (List Char) → Act Unit
  | [], _ => return
  | name :: names, parts => do
    assign name (parts.headD [])
    assignParts names parts.tail

def read (arguments : List (List Char)) : Act Nat := do
  let (options, names) ← Options.of [('p', true), ('r', false)] arguments
  if names.isEmpty then Act.refuse "arg count"
  let (strokes, complete) ← gather (options.any (·.1 = 'r')) 100000
  let separators := Expand.separators (← Act.state)
  assignParts names (shareLine separators names.length strokes)
  return if complete then 0 else 1

end Builtin

end SnippetLens.Shell
