/-!
Reading the arguments of a command line by a grammar: options with a long name and perhaps a short
one, and positional arguments.

An argument with one dash is a cluster of short options, of which the last may have its value in
the same argument; one with two dashes is a long option, perhaps with its value after an equals
sign; two dashes alone make all that follows positional, and one dash alone is positional itself. An
option that has a value and does not have it in the same argument takes the next one, which must not
look like an option. An argument is checked when the next one is read, so that of two faults, or of
a fault and a question for the version, the first one decides.
-/

namespace SnippetLens.Cli

inductive OptionKind where
  /-- It may stand any number of times, and the number counts. -/
  | counted
  /-- It may stand once. -/
  | flag
  /-- It has a value, and may stand once. -/
  | valued
  /-- It asks for the help text. -/
  | help
  /-- It asks for the version. -/
  | version
  deriving DecidableEq, Repr

structure OptionRule where
  long : String
  short : Option Char := none
  kind : OptionKind
  deriving DecidableEq, Repr

/-- The grammar of the arguments of a command: its options, what each positional argument may be,
and the names that end the arguments and start those of a command below. -/
structure ArgumentRules where
  options : List OptionRule
  positionals : List (String → Bool) := []
  below : List String := []

inductive Stop where
  /-- They do not follow the grammar. -/
  | misuse
  | help
  | version
  deriving DecidableEq, Repr

inductive Pending where
  /-- An option, and its value if that was read. -/
  | option (rule : OptionRule) (value : Option String)
  | positional (value : String)
  deriving DecidableEq, Repr

structure Arguments where
  /-- The options, each with its value, first one first; a flag has an empty value. -/
  options : List (String × String) := []
  positionals : List String := []
  pending : Option Pending := none
  /-- Whether all that follows is positional. -/
  onlyPositionals : Bool := false
  deriving DecidableEq, Repr

namespace Arguments

def count (a : Arguments) (long : String) : Nat :=
  a.options.countP fun entry => entry.1 = long

def has (a : Arguments) (long : String) : Bool :=
  a.count long ≠ 0

def value? (a : Arguments) (long : String) : Option String :=
  (a.options.find? fun entry => entry.1 = long).map (·.2)

/-- The arguments with one more option. One that may stand once is refused the second time. -/
def record (a : Arguments) (rule : OptionRule) (value : String) : Except Stop Arguments :=
  match rule.kind with
  | .help => .error .help
  | .version => .error .version
  | .counted => .ok { a with options := a.options ++ [(rule.long, value)] }
  | .flag | .valued =>
    if a.has rule.long then .error .misuse
    else .ok { a with options := a.options ++ [(rule.long, value)] }

def settle (rules : ArgumentRules) (a : Arguments) : Except Stop Arguments :=
  match a.pending with
  | none => .ok a
  | some (.option _ none) => .error .misuse
  | some (.option rule (some value)) =>
    if value.isEmpty then .error .misuse else { a with pending := none }.record rule value
  | some (.positional value) =>
    match rules.positionals[a.positionals.length]? with
    | none => .error .misuse
    | some accepts =>
      if accepts value then
        .ok { a with pending := none, positionals := a.positionals ++ [value] }
      else .error .misuse

def option (rules : ArgumentRules) (a : Arguments) (rule : OptionRule) : Except Stop Arguments := do
  let a ← a.settle rules
  if rule.kind = .valued then return { a with pending := some (.option rule none) }
  else a.record rule ""

def optionWith (rules : ArgumentRules) (a : Arguments) (rule : OptionRule) (value : String) :
    Except Stop Arguments := do
  let a ← a.settle rules
  { a with pending := some (.option rule (some value)) }.settle rules

def long (rules : ArgumentRules) (a : Arguments) (text : List Char) : Except Stop Arguments :=
  let name := text.takeWhile (· ≠ '=')
  match rules.options.find? fun rule => rule.long = String.ofList name with
  | none => .error .misuse
  | some rule =>
    match text.drop name.length with
    | [] => a.option rules rule
    | _ :: value =>
      if rule.kind = .valued then a.optionWith rules rule (String.ofList value)
      else .error .misuse

def cluster (rules : ArgumentRules) (a : Arguments) : List Char → Except Stop Arguments
  | [] => .ok a
  | c :: rest =>
    match rules.options.find? fun rule => rule.short = some c with
    | none => .error .misuse
    | some rule =>
      if rule.kind = .valued then
        match rest with
        | [] => a.option rules rule
        | '=' :: value => a.optionWith rules rule (String.ofList value)
        | value => a.optionWith rules rule (String.ofList value)
      else do cluster rules (← a.option rules rule) rest

def positional (rules : ArgumentRules) (a : Arguments) (value : String) :
    Except Stop Arguments := do
  let a ← a.settle rules
  if a.positionals.length < rules.positionals.length then
    return { a with pending := some (.positional value) }
  else throw .misuse

def awaiting? (a : Arguments) : Option OptionRule :=
  match a.pending with
  | some (.option rule none) => some rule
  | _ => none

/-- Reads the arguments of a command, up to the name of a command below, if there is one; that name
and what follows it are left. -/
def read (rules : ArgumentRules) (a : Arguments) :
    List String → Except Stop (Arguments × List String)
  | [] => .ok (a, [])
  | text :: rest =>
    if a.onlyPositionals then do read rules (← a.positional rules text) rest
    else
      let valueOf := if text = "-" || text.toList.head? ≠ some '-' then a.awaiting? else none
      match valueOf with
      | some rule => read rules { a with pending := some (.option rule (some text)) } rest
      | none =>
        match text.toList with
        | ['-', '-'] => read rules { a with onlyPositionals := true } rest
        | '-' :: '-' :: name => do read rules (← a.long rules name) rest
        | '-' :: c :: cs => do read rules (← a.cluster rules (c :: cs)) rest
        | _ =>
          if rules.below.contains text then .ok (a, text :: rest)
          else do read rules (← a.positional rules text) rest

/-- Checks what is left to check; every positional argument must be there. -/
def finish (rules : ArgumentRules) (a : Arguments) : Except Stop Arguments := do
  let a ← a.settle rules
  if a.positionals.length = rules.positionals.length then return a else throw .misuse

end Arguments

end SnippetLens.Cli
