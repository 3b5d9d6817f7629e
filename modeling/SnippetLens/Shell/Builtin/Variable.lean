import SnippetLens.Shell.Builtin.Options

/-!
The commands on variables, settings and the arguments of the script.
-/

namespace SnippetLens.Shell.Builtin

def isName (cs : List Char) : Bool :=
  !cs.isEmpty && Reader.nameAt cs = cs

def binding (argument : List Char) : Name × Option (List Char) :=
  let name := argument.takeWhile (· ≠ '=')
  (name, match argument.drop name.length with
    | _ :: value => some value
    | [] => none)

/-- The name of a variable in an argument, without an equals sign and what follows it; what is no
name is refused. -/
def nameIn (argument : List Char) : Act Name := do
  let name := argument.takeWhile (· ≠ '=')
  if isName name then return name
  else Act.refuse (Text.Octets.toText name ++ ": bad variable name")

/-! ### Variables -/

def assign (argument value : List Char) (exported fixed : Bool := false) : Act Unit := do
  let name ← nameIn argument
  Act.attempt (·.put name value exported fixed)

def dropVariable (argument : List Char) : Act Unit := do
  let name ← nameIn argument
  Act.attempt (·.drop name)

def listing (start : String) (vars : List Variable) : List Char :=
  vars.flatMap fun v =>
    let value := match v.value with
      | some value => '=' :: quote value
      | none => []
    start.toList ++ v.name ++ value ++ ['\n']

/-- Marks variables, and gives values to those that have one in their argument. Without a name the
variables with the mark are listed. -/
def markVariables (start : String) (exports : Bool) (arguments : List (List Char)) : Act Nat := do
  let (options, names) ← Options.of [('p', false)] arguments
  if options.isEmpty && !names.isEmpty then
    for argument in names do
      match binding argument with
      | (name, some value) => assign name value exports !exports
      | (argument, none) =>
        let name ← nameIn argument
        Act.change (·.mark name exports !exports)
  else
    let vars := (← Act.state).sortedVariables.filter fun v =>
      if exports then v.exported else v.fixed
    Act.put (listing start vars)
  return 0

def unset (arguments : List (List Char)) : Act Nat := do
  let (options, names) ← Options.of [('v', false), ('f', false)] arguments
  let isFunction := options.getLast?.any (·.1 = 'f')
  for name in names do
    if isFunction then
      Act.change fun s => { s with functions := s.functions.filter (·.1 ≠ name) }
    else dropVariable name
  return 0

def makeLocal (arguments : List (List Char)) : Act Nat := do
  if (← Act.state).scopes.isEmpty then Act.refuse "not in a function"
  for argument in arguments do
    let s ← Act.state
    if argument = ['-'] then Act.change (·.remember (.settings s.settings))
    else
      let (name, value) := binding argument
      let old := s.lookup? name
      match value with
      | some value => assign name value
      | none =>
        let _ ← nameIn name
      Act.change (·.remember (.variable name old))
  return 0

/-! ### Settings and arguments -/

def setArguments (arguments : List (List Char)) : Act Unit :=
  Act.change fun s => { s with arguments, optionIndex := 1, optionOffset := none }

/-- Turns settings on or off that letters tell; each `o` among them takes a name from the
arguments. -/
def setLetters (on : Bool) : List Char → List (List Char) → Act (List (List Char))
  | [], rest => return rest
  | 'o' :: letters, rest => do
    match rest with
    | [] =>
      let settings := (← Act.state).settings
      let text := if on then Setting.table settings else Setting.commands settings
      Act.put text.toList
      setLetters on letters []
    | name :: rest =>
      match Setting.ofName? (Text.Octets.toText name) with
      | some setting => Act.change (·.turn setting on)
      | none =>
        Act.refuse ("Illegal option " ++ (if on then "-" else "+") ++ "o " ++
          Text.Octets.toText name)
      setLetters on letters rest
  | c :: letters, rest => do
    match Setting.ofLetter? c with
    | some setting => Act.change (·.turnByLetter setting on)
    | none => Act.refuse ("Illegal option -" ++ Text.Octets.toText [c])
    setLetters on letters rest

/-- Turns settings on and off, at most as many arguments as the number says; the rest become the
arguments of the script. -/
def setAll (arguments : List (List Char)) : Nat → Act Unit
  | 0 => return
  | n + 1 => do
    match arguments with
    | [] => return
    | ['-'] :: rest =>
      Act.change fun s => (s.turn .traces false).turn .repeatsLines false
      if !rest.isEmpty then setArguments rest
    | ['-', '-'] :: rest => setArguments rest
    | ('-' :: letters) :: rest => setAll (← setLetters true letters rest) n
    | ('+' :: letters) :: rest => setAll (← setLetters false letters rest) n
    | rest => setArguments rest

/-- Lists the variables, or turns settings on and off and sets the arguments of the script. There is
no terminal from which jobs could be watched. -/
def set (arguments : List (List Char)) : Act Nat := do
  if arguments.isEmpty then
    Act.put (listing "" ((← Act.state).sortedVariables.filter (·.value.isSome)))
  else
    setAll arguments arguments.length
    if (← Act.state).has .monitor then
      Act.complain "can't access tty; job control turned off"
      Act.change (·.turn .monitor false)
  return 0

def shift (arguments : List (List Char)) : Act Nat := do
  let n ← match arguments with
    | [] => pure 1
    | argument :: _ => Act.countOf argument
  let s ← Act.state
  if s.arguments.length < n then Act.refuse "can't shift that many"
  setArguments (s.arguments.drop n)
  return 0

/-! ### Options of the script -/

inductive NextOption where
  | none
  | unknown (letter : Char)
  | missing (letter : Char)
  | plain (letter : Char)
  | valued (letter : Char) (value : List Char)

/-- Whether a letter is in a description of options, and whether it takes an argument. A colon
behind a letter says that it does. -/
def isOption? (letter : Char) : List Char → Option Bool
  | [] => none
  | c :: rest =>
    if c = letter then some (rest.head? = some ':')
    else
      match rest with
      | ':' :: rest => isOption? letter rest
      | rest => isOption? letter rest

/-- The next option among arguments, the number of the argument after it, and where in the argument
before that one the search goes on. -/
def nextOption (described : List Char) (arguments : List (List Char)) (index : Nat)
    (offset : Option Nat) : NextOption × Nat × Option Nat :=
  let argument := fun (n : Nat) => arguments[n - 1]?
  let begun := match offset with
    | some k =>
      if index ≤ 1 then [] else ((argument (index - 1)).getD []).drop k
    | none => []
  let here : Option (List Char × Nat) :=
    if !begun.isEmpty then some (begun, index)
    else
      match argument index with
      | some ('-' :: c :: cs) => if c :: cs = ['-'] then none else some (c :: cs, index + 1)
      | _ => none
  match here with
  | none =>
    let isEnd := begun.isEmpty && argument index = some ['-', '-']
    (.none, if isEnd then index + 1 else index, none)
  | some ([], index) => (.none, index, none)
  | some (c :: rest, index) =>
    let length := ((argument (index - 1)).getD []).length
    let after := if rest.isEmpty then some length else some (length - rest.length)
    match isOption? c described with
    | none => (.unknown c, index, after)
    | some false => (.plain c, index, after)
    | some true =>
      if !rest.isEmpty then (.valued c rest, index, none)
      else
        match argument index with
        | some value => (.valued c value, index + 1, none)
        | none => (.missing c, index, none)

def getopts (arguments : List (List Char)) : Act Nat := do
  match ← Options.operands arguments with
  | described :: name :: given => do
    let s ← Act.state
    let arguments := if given.isEmpty then s.arguments else given
    let isPast := arguments.length + 1 < s.optionIndex
    let (index, offset) := if isPast then (1, none) else (s.optionIndex, s.optionOffset)
    let (found, index, offset) := nextOption described arguments index offset
    let isQuiet := described.head? = some ':'
    let wrong := fun (before : String) (c : Char) (after : String) (sign : Char) => do
      if isQuiet then
        assign "OPTARG".toList [c]
        return sign
      else
        let _ ← Act.write 2 (before.toList ++ c :: after.toList)
        dropVariable "OPTARG".toList
        return '?'
    let letter ← match found with
      | .none => pure '?'
      | .unknown c => wrong "Illegal option -" c "\n" '?'
      | .missing c => wrong "No arg for -" c " option\n" ':'
      | .plain c => do
        assign "OPTARG".toList []
        pure c
      | .valued c value => do
        assign "OPTARG".toList value
        pure c
    assign "OPTIND".toList (decimal index)
    assign name [letter]
    Act.change fun s => { s with optionIndex := index, optionOffset := offset }
    match found with
    | .none => return 1
    | _ => return 0
  | _ => Act.refuse "Usage: getopts optstring var [arg...]"

end SnippetLens.Shell.Builtin
