import SnippetLens.Shell.Dialogue
import SnippetLens.Shell.Field

/-!
Expanding words. The parts of a word become grains, which are cut into fields; a field that is a
pattern becomes the paths that it takes. A word that is assigned or that leads a redirection is one
text.
-/

namespace SnippetLens.Shell.Expand

def separators (s : State) : List Char :=
  (s.get? "IFS".toList).getD [' ', '\t', '\n']

def joint (s : State) : List Char :=
  match s.get? "IFS".toList with
  | some cs => cs.take 1
  | none => [' ']

def joinedArguments (s : State) : List Char :=
  (joint s).intercalate s.arguments

def parameter? (s : State) (name : Name) : Option (List Char) :=
  match name with
  | ['@'] | ['*'] => some (joinedArguments s)
  | ['#'] => some (decimal s.arguments.length)
  | ['?'] => some (decimal s.status)
  | ['$'] => some (decimal s.process)
  | ['-'] => some (Setting.letters s.settings)
  | ['!'] => s.lastBackground.map decimal
  | c :: _ =>
    if c.isDigit then
      match digitsAt 10 0 name with
      | (0, _) => some s.name
      | (n + 1, _) => s.arguments[n]?
    else s.get? name
  | [] => none

def strict : Rule → Bool
  | .otherwise b | .assign b | .demand b | .instead b => b
  | .value | .length | .trim .. => false

def present (s : State) (name : Name) (rule : Rule) : Bool :=
  match parameter? s name with
  | none => false
  | some value => !(strict rule && value.isEmpty)

def valueGrains (s : State) (quoted : Bool) (name : Name) : List Grain :=
  match name with
  | ['@'] => Grain.ofFields quoted s.arguments
  | ['*'] =>
    if quoted then Grain.ofValue true (joinedArguments s) else Grain.ofFields false s.arguments
  | _ => Grain.ofValue quoted ((parameter? s name).getD [])

def missing (name : Name) (what : String) : String :=
  Text.Octets.toText name ++ ": " ++ what

def demandSet (name : Name) : Expand Unit := do
  let s ← state
  if s.has .demandsParameters && (parameter? s name).isNone then
    refuse (missing name "parameter not set")

/-! ### Homes -/

def homes : List (String × String) :=
  [("root", "/root"), ("daemon", "/usr/sbin"), ("bin", "/bin"), ("sys", "/dev"),
    ("sync", "/bin"), ("games", "/usr/games"), ("man", "/var/cache/man"),
    ("lp", "/var/spool/lpd"), ("mail", "/var/mail"), ("news", "/var/spool/news"),
    ("uucp", "/var/spool/uucp"), ("proxy", "/bin"), ("www-data", "/var/www"),
    ("backup", "/var/backups"), ("list", "/var/list"), ("irc", "/run/ircd"),
    ("_apt", "/nonexistent"), ("nobody", "/nonexistent")]

def home? (s : State) (user : List Char) : Option (List Char) :=
  if user.isEmpty then s.get? "HOME".toList
  else (homes.find? fun entry => entry.1.toList = user).map (·.2.toList)

inductive Purpose where
  /-- Fields; a tilde at the start is replaced. -/
  | fields
  /-- One text; a tilde at the start is replaced. -/
  | text
  /-- The value of a variable; tildes are replaced at the start and after each colon. -/
  | value
  deriving DecidableEq, Repr

/-- The grains of what a script has written without quotes. A tilde where a home may stand is
replaced with the name after it, which ends at a slash, or at a colon where that starts the next
one; if the name goes on in another part of the word nobody is meant. -/
def writtenGrains (s : State) (purpose : Purpose) (here isLast : Bool) (cs : List Char) :
    List Grain :=
  match cs with
  | [] => []
  | '~' :: r =>
    let user := r.takeWhile fun c => c ≠ '/' && (c ≠ ':' || purpose ≠ .value)
    let rest := r.drop user.length
    match if here && (isLast || !rest.isEmpty) then home? s user else none with
    | none => .written '~' true :: writtenGrains s purpose false isLast r
    | some home => home.map (.written · false) ++ writtenGrains s purpose false isLast rest
  | c :: r =>
    .written c true :: writtenGrains s purpose (purpose = .value && c = ':') isLast r
termination_by cs.length
decreasing_by
  all_goals simp only [List.length_cons, List.length_drop]
  all_goals omega

/-! ### Words -/

/-- Whether characters part the arguments in fields, where each one is looked at by itself. -/
def partsArguments (s : State) (purpose : Purpose) (quoted : Bool) (name : Name) : Bool :=
  let isParted := if quoted then name = ['@']
    else (name = ['@'] || name = ['*']) && (s.get? "IFS".toList).isSome
  purpose = .fields && isParted

/-- The character between arguments that are looked at together and become fields again. -/
def argumentMark : Char := '\x00'

def trimmedGrains (s : State) (purpose : Purpose) (quoted : Bool) (name : Name)
    (trim : List Char → List Char) : List Grain :=
  if partsArguments s purpose quoted name then
    if s.arguments.isEmpty then []
    else
      let rest := trim ([argumentMark].intercalate s.arguments)
      Grain.ofFields quoted (rest.splitOn argumentMark)
  else Grain.ofValue quoted (trim ((parameter? s name).getD []))

mutual

def piece (purpose : Purpose) (isFirst isLast : Bool) : Piece → Expand (List Grain)
  | .text true cs => return .presence :: cs.map (.written · false)
  | .text false cs => return writtenGrains (← state) purpose isFirst isLast cs
  | .parameter quoted name rule word => do
    if name.isEmpty then refuse "Bad substitution"
    let s ← state
    match rule with
    | .value =>
      demandSet name
      let rest ← pieces purpose false word
      return valueGrains s quoted name ++ rest
    | .length =>
      demandSet name
      return Grain.ofValue quoted (decimal ((parameter? s name).getD []).length)
    | .otherwise _ =>
      if present s name rule then return valueGrains s quoted name
      else return Grain.inPlace quoted (← pieces purpose true word)
    | .instead _ =>
      if present s name rule then return Grain.inPlace quoted (← pieces purpose true word)
      else return if quoted then [.presence] else []
    | .assign _ =>
      if present s name rule then return valueGrains s quoted name
      else
        let gs ← pieces .text true word
        if !(name.head?.any fun c => c.isAlpha || c = '_') then
          refuse (missing name "bad variable name")
        let value := Grain.text (joint (← state)) gs
        attempt (·.put name value)
        return Grain.ofValue quoted value
    | .demand orEmpty =>
      if present s name rule then return valueGrains s quoted name
      else
        let gs ← pieces .text true word
        let usual := if orEmpty then "parameter not set or null" else "parameter not set"
        let told := Text.Octets.toText (Grain.text (joint (← state)) gs)
        refuse (missing name (if word.isEmpty then usual else told))
    | .trim front longest =>
      demandSet name
      if (parameter? s name).isNone then return Grain.ofValue quoted []
      else
        let gs ← pieces .text true word
        let signs := Sign.pattern (Grain.marked (joint (← state)) gs)
        return trimmedGrains s purpose quoted name (Sign.trim front longest signs)
  | .arithmetic quoted word => do
    let gs ← pieces .text false word
    let value ← valueOf (Grain.text (joint (← state)) gs)
    return Grain.ofValue quoted (toString value).toList
  | .output quoted command => return Grain.ofValue quoted (← outputOf command)

def pieces (purpose : Purpose) (isFirst : Bool) : List Piece → Expand (List Grain)
  | [] => return []
  | p :: ps => do
    let first ← piece purpose isFirst ps.isEmpty p
    let rest ← pieces purpose false ps
    return first ++ rest

end

def text (w : Word) : Expand (List Char) := do
  let gs ← pieces .text true w
  return Grain.text (joint (← state)) gs

def assigned (w : Word) : Expand (List Char) := do
  let gs ← pieces .value true w
  return Grain.text (joint (← state)) gs

def document (w : Word) : Expand (List Char) := do
  let gs ← pieces .text false w
  return Grain.text (joint (← state)) gs

def pattern (w : Word) : Expand (List Sign) := do
  let gs ← pieces .text true w
  return Sign.pattern (Grain.marked (joint (← state)) gs)

def spread (field : List Marked) : Expand (List (List Char)) := do
  if !(← state).has .keepsPatterns && Sign.isOpen (Sign.pattern field) then
    match ← pathsOf field with
    | [] => return [field.map (·.char)]
    | found => return found
  else return [field.map (·.char)]

def spreadAll : List (List Marked) → Expand (List (List Char))
  | [] => return []
  | field :: rest => do return (← spread field) ++ (← spreadAll rest)

def fields (w : Word) : Expand (List (List Char)) := do
  let gs ← pieces .fields true w
  spreadAll (fieldsOf (separators (← state)) gs)

def allFields : List Word → Expand (List (List Char))
  | [] => return []
  | w :: ws => do return (← fields w) ++ (← allFields ws)

end SnippetLens.Shell.Expand
