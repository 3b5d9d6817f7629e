import SnippetLens.Shell.Lookup
import SnippetLens.Shell.Redirect

/-!
What the words of a simple command say: which of them names the command, and how it is to be looked
for. The words are expanded one after another, since a word that is an assignment is one text where
the command takes assignments.
-/

namespace SnippetLens.Shell

structure Opening where
  /-- How many words come before the one that names the command. -/
  skipped : Nat := 0
  /-- The command of the shell that the first word names. -/
  first : Option Builtin := none
  /-- The command of the shell that is named. -/
  builtin : Option Builtin := none
  skipsFunctions : Bool := false
  /-- The command is looked for where commands are found in any case. -/
  searchesUsual : Bool := false
  deriving Repr

namespace Opening

inductive Options where
  /-- There are no more words. -/
  | unfinished
  /-- The command is meant itself. -/
  | plain
  /-- So many words come before the one that names a command. -/
  | next (count : Nat) (searchesUsual : Bool)

def options (searchesUsual : Bool) (count : Nat) : List (List Char) → Options
  | [] => .unfinished
  | ['-', '-'] :: rest => if rest.isEmpty then .unfinished else .next (count + 1) searchesUsual
  | ('-' :: c :: cs) :: rest =>
    if (c :: cs).all (· = 'p') then options true (count + 1) rest else .plain
  | _ :: _ => .next count searchesUsual

/-- What is known from some words, of which at most as many as the number says name commands, and
whether other words do not change it. -/
def ofWords (s : State) (o : Opening) (words : List (List Char)) : Nat → Opening × Bool
  | 0 => (o, true)
  | n + 1 =>
    match words with
    | [] => (o, false)
    | name :: rest =>
      match if name.contains '/' then none else s.meaning? o.skipsFunctions name with
      | some (.builtin b) =>
        let o := { o with builtin := some b, first := o.first <|> some b }
        if b.name ≠ "command" then (o, true)
        else
          match options o.searchesUsual 0 rest with
          | .unfinished => (o, false)
          | .plain => (o, true)
          | .next count searchesUsual =>
            ofWords s
              { o with skipped := o.skipped + 1 + count, skipsFunctions := true, searchesUsual }
              (rest.drop count) n
      | _ => ({ o with builtin := none }, true)

end Opening

structure Invocation where
  opening : Opening
  /-- All the words. -/
  words : List (List Char)
  targets : List Target

namespace Invocation

def command (i : Invocation) : List (List Char) :=
  i.words.drop i.opening.skipped

def isSpecial (i : Invocation) : Bool :=
  i.opening.first.any (·.isSpecial)

def isolates (i : Invocation) : Bool :=
  !i.words.isEmpty && !i.isSpecial

def calls (i : Invocation) (name : String) : Bool :=
  i.opening.builtin.any (·.name = name)

end Invocation

namespace Expand

def isAssignment : Word → Bool
  | .text false cs :: _ =>
    let name := Reader.nameAt cs
    !name.isEmpty && (cs.drop name.length).head? = some '='
  | _ => false

def assignment (w : Word) : Expand (List Char) := do
  match w with
  | .text false cs :: rest =>
    let name := Reader.nameAt cs
    let value := cs.drop (name.length + 1)
    let value := if value.isEmpty then rest else .text false value :: rest
    return name ++ '=' :: (← assigned value)
  | w => assigned w

def wordsOf (known : Option Opening) (before : List (List Char)) :
    List Word → Expand (Opening × List (List Char))
  | [] => do
    let s ← state
    let o := match known with
      | some o => o
      | none => (Opening.ofWords s {} before (before.length + 1)).1
    return (o, before)
  | w :: rest => do
    if before.isEmpty then wordsOf none (← fields w) rest
    else
      let s ← state
      let (o, isSure) := match known with
        | some o => (o, true)
        | none => Opening.ofWords s {} before (before.length + 1)
      let assigns := isSure && o.builtin.any (·.assigns) && isAssignment w
      let found ← if assigns then (fun text => [text]) <$> assignment w else fields w
      wordsOf (if isSure then some o else none) (before ++ found) rest

def invocation (words : List Word) (redirections : List Redirection) : Expand Invocation := do
  change fun s => { s with outputStatus := 0 }
  let (opening, words) ← wordsOf none [] words
  return { opening, words, targets := ← targets redirections }

end Expand

end SnippetLens.Shell
