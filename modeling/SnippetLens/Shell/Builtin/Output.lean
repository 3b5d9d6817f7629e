import SnippetLens.Shell.Builtin.Options
import SnippetLens.Shell.Condition
import SnippetLens.Shell.Format

/-!
The commands that write texts, and those that only tell whether something holds.
-/

namespace SnippetLens.Shell.Builtin

def echo (arguments : List (List Char)) : Act Nat := do
  let (words, lineEnd) := match arguments with
    | ['-', 'n'] :: words => (words, [])
    | words => (words, ['\n'])
  let text := [' '].intercalate words
  let (cs, stopped) := Format.unescape text (text.length + 1)
  Act.put (if stopped then cs else cs ++ lineEnd)
  return 0

def printf (arguments : List (List Char)) : Act Nat := do
  match ← Options.operands arguments with
  | [] => Act.refuse "usage: printf format [arg ...]"
  | format :: arguments =>
    let p := Format.run format arguments
    for complaint in p.complaints.reverse do Act.complain complaint
    Act.put p.written
    match p.refused with
    | some message => Act.refuse message
    | none => return if p.complaints.isEmpty then 0 else 1

def test (arguments : List (List Char)) : Act Nat := do
  match Condition.holds (← Act.files) arguments with
  | .ok holds => return if holds then 0 else 1
  | .error message => Act.refuse message

def bracket (arguments : List (List Char)) : Act Nat := do
  if (arguments.getLast?.bind (·.head?)) = some ']' then test arguments.dropLast
  else Act.refuse "missing ]"

end SnippetLens.Shell.Builtin
