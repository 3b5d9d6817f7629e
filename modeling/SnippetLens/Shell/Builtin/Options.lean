import SnippetLens.Shell.Session

/-!
The options of a command: letters after a dash, several of which may stand in one argument. A letter
may take an argument, which is what follows it or, if nothing does, the next one. Two dashes end the
options.
-/

namespace SnippetLens.Shell.Options

abbrev Known := List (Char × Bool)

/-- The options in the letters of one argument; the last one may still need its argument. -/
def ofLetters (known : Known) : List Char → Except String (List (Char × List Char) × Option Char)
  | [] => .ok ([], none)
  | c :: r => do
    match known.find? (·.1 = c) with
    | none => .error ("Illegal option -" ++ Text.Octets.toText [c])
    | some (_, false) =>
      let (options, wanting) ← ofLetters known r
      return ((c, []) :: options, wanting)
    | some (_, true) => return if r.isEmpty then ([], some c) else ([(c, r)], none)

def split (known : Known) :
    List (List Char) → Except String (List (Char × List Char) × List (List Char))
  | [] => .ok ([], [])
  | ['-', '-'] :: rest => .ok ([], rest)
  | ('-' :: c :: r) :: rest => do
    let (options, wanting) ← ofLetters known (c :: r)
    match wanting, rest with
    | none, rest =>
      let (more, rest) ← split known rest
      return (options ++ more, rest)
    | some c, argument :: rest =>
      let (more, rest) ← split known rest
      return (options ++ (c, argument) :: more, rest)
    | some c, [] => .error ("No arg for -" ++ Text.Octets.toText [c] ++ " option")
  | rest => .ok ([], rest)

/-- The options at the start of the arguments, and the arguments after them, or the end of the
command. -/
def of (known : Known) (arguments : List (List Char)) :
    Act (List (Char × List Char) × List (List Char)) := do
  match split known arguments with
  | .ok found => return found
  | .error message => Act.refuse message

def operands (arguments : List (List Char)) : Act (List (List Char)) := do
  return (← of [] arguments).2

end SnippetLens.Shell.Options
