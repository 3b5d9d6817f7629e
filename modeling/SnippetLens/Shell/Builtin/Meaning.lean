import SnippetLens.Shell.Builtin.Variable
import SnippetLens.Shell.Lookup

/-!
The commands that give names a meaning, or tell what meaning a name has.
-/

namespace SnippetLens.Shell.Builtin

/-! ### Aliases -/

def aliasLine (a : Alias) : List Char :=
  a.name ++ '=' :: quote a.text ++ ['\n']

def inRows {α : Type} (rows : Nat) (name : α → Name) (entries : List α) : List α :=
  entries.mergeSort fun a b => row rows (name a) ≤ row rows (name b)

def makeAliases (arguments : List (List Char)) : Act Nat := do
  if arguments.isEmpty then
    for a in inRows 39 (·.name) (← Act.state).aliases do Act.put (aliasLine a)
    return 0
  else
    let mut status := 0
    for argument in arguments do
      let name := argument.take 1 ++ (argument.drop 1).takeWhile (· ≠ '=')
      match argument.drop name.length with
      | _ :: text =>
        Act.change fun s =>
          if s.aliases.any (·.name = name) then
            { s with aliases := s.aliases.map fun a => if a.name = name then ⟨name, text⟩ else a }
          else { s with aliases := s.aliases ++ [⟨name, text⟩] }
      | [] =>
        match (← Act.state).aliases.find? (·.name = name) with
        | some a => Act.put (aliasLine a)
        | none =>
          let _ ← Act.write 2 ("alias: ".toList ++ name ++ " not found\n".toList)
          status := 1
    return status

def dropAliases (arguments : List (List Char)) : Act Nat := do
  let (options, names) ← Options.of [('a', false)] arguments
  if !options.isEmpty then
    Act.change fun s => { s with aliases := [] }
    return 0
  else
    let mut status := 0
    for name in names do
      if (← Act.state).aliases.any (·.name = name) then
        Act.change fun s => { s with aliases := s.aliases.filter (·.name ≠ name) }
      else
        let _ ← Act.write 2 ("unalias: ".toList ++ name ++ " not found\n".toList)
        status := 1
    return status

/-! ### Where programs are -/

def foundPath (searchPath : Option (List Char)) (name : Name) (index : Nat) : List Char :=
  (candidates searchPath name)[index]?.getD name

def hash (arguments : List (List Char)) : Act Nat := do
  let (options, names) ← Options.of [('r', false)] arguments
  if !options.isEmpty then
    Act.change fun s => { s with found := [] }
    return 0
  else if names.isEmpty then
    let s ← Act.state
    for f in inRows 31 (·.name) s.found do
      let mark := if f.isOld then ['*'] else []
      Act.put (foundPath s.searchPath f.name f.index ++ mark ++ ['\n'])
    return 0
  else
    let mut status := 0
    for name in names do
      Act.change (·.forgetFound name)
      match ← Act.lookUp name false none with
      | .unknown =>
        Act.complain (Text.Octets.toText name ++ ": " ++ (← Act.whyUnknown name none))
        status := 1
      | _ => pure ()
    return status

/-! ### What a name means -/

/-- Tells what a name means: only what is carried out, or in words. Another search path than that of
the shell may be given. -/
def tell (name : Name) (inWords : Bool) (searchPath : Option (List Char)) : Act Nat := do
  let say := fun (words : List Char) (short : List Char) =>
    Act.put ((if inWords then name ++ words else short) ++ ['\n'])
  let s ← Act.state
  if Reader.keywords.contains (String.ofList name) then
    say " is a shell keyword".toList name
    return 0
  else
    match s.aliases.find? (·.name = name) with
    | some a =>
      if inWords then say (" is an alias for ".toList ++ a.text) []
      else Act.put ("alias ".toList ++ aliasLine a)
      return 0
    | none =>
      let isKnown := searchPath.isNone && s.found.any (·.name = name)
      match ← Act.lookUp name false searchPath with
      | .builtin builtin =>
        let special := if builtin.isSpecial then "special " else ""
        say (" is a " ++ special ++ "shell builtin").toList name
        return 0
      | .function _ =>
        say " is a shell function".toList name
        return 0
      | .program index =>
        let path := match index with
          | some index => foundPath (searchPath <|> s.searchPath) name index
          | none => name
        if index.isSome || (← Act.files).reaches (pathOf name) then
          let tracked := if isKnown then " is a tracked alias for " else " is "
          say (tracked.toList ++ path) path
          return 0
        else notFound
      | .unknown => notFound
where
  notFound : Act Nat := do
    if inWords then Act.put (name ++ ": not found\n".toList)
    return 127

def type (names : List (List Char)) : Act Nat := do
  let mut status := 0
  for name in names do
    let answer ← tell name true none
    status := if answer = 0 then status else answer
  return status

def command (arguments : List (List Char)) : Act Nat := do
  let (options, names) ← Options.of [('p', false), ('v', false), ('V', false)] arguments
  let has := fun (c : Char) => options.any (·.1 = c)
  match names with
  | name :: _ =>
    if has 'v' || has 'V' then
      tell name (has 'V') (if has 'p' then some usualSearchPath else none)
    else return 0
  | [] => return 0

end SnippetLens.Shell.Builtin
