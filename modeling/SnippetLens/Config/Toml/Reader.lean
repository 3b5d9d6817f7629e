/-!
Readers: what takes a part of a document from the front of its characters, or fails.
-/

namespace SnippetLens.Config.Toml

/-- Reads from the front of the characters, and leaves the rest. -/
abbrev Reader (α : Type) := StateT (List Char) Option α

namespace Reader

variable {α : Type}

def peek : Reader (Option Char) := fun s => some (s.head?, s)

def atEnd : Reader Unit := fun s => if s.isEmpty then some ((), s) else none

def one (p : Char → Bool) : Reader Char
  | [] => none
  | c :: r => if p c then some (c, r) else none

def exactly (text : String) : Reader Unit := fun s =>
  if text.toList.isPrefixOf s then some ((), s.drop text.length) else none

def run (p : Char → Bool) : Reader (List Char) := fun s =>
  some (s.takeWhile p, s.dropWhile p)

def count (p : Char → Bool) : Nat → Reader (List Char)
  | 0 => pure []
  | n + 1 => do
    let c ← one p
    return c :: (← count p n)

def maybe (p : Reader α) : Reader (Option α) := fun s =>
  match p s with
  | some (a, r) => some (some a, r)
  | none => some (none, s)

/-- What a reader reads again and again until it fails or takes nothing, at most as often as the
number says. -/
def repeated (p : Reader α) : Nat → Reader (List α)
  | 0 => pure []
  | n + 1 => fun s =>
    match p s with
    | none => some ([], s)
    | some (a, r) =>
      if r.length < s.length then (do return a :: (← repeated p n)) r else some ([a], r)

def many (p : Reader α) : Reader (List α) := fun s => repeated p s.length s

def separated1 (p : Reader α) (separator : Reader Unit) : Reader (List α) := do
  let first ← p
  return first :: (← many (do separator; p))

def separated (p : Reader α) (separator : Reader Unit) : Reader (List α) := do
  return (← maybe (separated1 p separator)).getD []

end Reader

end SnippetLens.Config.Toml
