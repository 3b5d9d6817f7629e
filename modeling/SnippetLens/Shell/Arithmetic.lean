import SnippetLens.Shell.State

/-!
Arithmetic in scripts, on signed words of 64 bits. An expression is evaluated while it is read, so
that of two faults the first one counts. An operand whose value does not count is only read: it
assigns nothing, and its divisions are not carried out.
-/

namespace SnippetLens.Shell

inductive Operation where
  | add | subtract | multiply | divide | remainder
  | shiftLeft | shiftRight
  | less | lessEqual | greater | greaterEqual | equal | unequal
  | bitAnd | bitXor | bitOr
  deriving DecidableEq, Repr

inductive ArithmeticError where
  | expecting (what : String)
  | divisionByZero
  /-- The least number divided by minus one has no place in a word. -/
  | quotientTooLarge
  /-- A variable that has a part has no number as its value, or keeps its value. -/
  | ofVariable (message : String)
  deriving DecidableEq, Repr

def ArithmeticError.message (expression : List Char) : ArithmeticError → String
  | .expecting what =>
    "arithmetic expression: expecting " ++ what ++ ": \"" ++ Text.Octets.toText expression ++ "\""
  | .divisionByZero =>
    "arithmetic expression: division by zero: \"" ++ Text.Octets.toText expression ++ "\""
  | .quotientTooLarge => Signal.description Signal.arithmetic
  | .ofVariable message => message

def ArithmeticError.signal? : ArithmeticError → Option Signal
  | .quotientTooLarge => some Signal.arithmetic
  | _ => none

inductive Lexeme where
  | number (value : Int64)
  | name (name : Name)
  | sign (text : String)
  deriving DecidableEq

def longSigns : List String :=
  ["<<=", ">>=", "<<", ">>", "<=", ">=", "==", "!=", "&&", "||", "+=", "-=", "*=", "/=", "%=", "&=",
    "^=", "|="]

def lexemes (cs : List Char) : Nat → List Lexeme
  | 0 => []
  | n + 1 =>
    match cs with
    | [] => []
    | c :: r =>
      if c = ' ' || c = '\t' || c = '\n' then lexemes r n
      else if c.isDigit then
        let (value, rest) := basedAt (c :: r)
        .number (clamp value) :: lexemes rest n
      else if c.isAlpha || c = '_' then
        let tail := r.takeWhile fun d => d.isAlphanum || d = '_'
        .name (c :: tail) :: lexemes (r.drop tail.length) n
      else
        match longSigns.find? fun s => s.toList.isPrefixOf (c :: r) with
        | some s => .sign s :: lexemes ((c :: r).drop s.length) n
        | none => .sign (String.singleton c) :: lexemes r n

def Operation.ofSign? : String → Option (Nat × Operation)
  | "|" => some (1, .bitOr)
  | "^" => some (2, .bitXor)
  | "&" => some (3, .bitAnd)
  | "==" => some (4, .equal)
  | "!=" => some (4, .unequal)
  | "<" => some (5, .less)
  | "<=" => some (5, .lessEqual)
  | ">" => some (5, .greater)
  | ">=" => some (5, .greaterEqual)
  | "<<" => some (6, .shiftLeft)
  | ">>" => some (6, .shiftRight)
  | "+" => some (7, .add)
  | "-" => some (7, .subtract)
  | "*" => some (8, .multiply)
  | "/" => some (8, .divide)
  | "%" => some (8, .remainder)
  | _ => none

def Operation.ofAssignment? : String → Option (Option Operation)
  | "=" => some none
  | "+=" => some (some .add)
  | "-=" => some (some .subtract)
  | "*=" => some (some .multiply)
  | "/=" => some (some .divide)
  | "%=" => some (some .remainder)
  | "<<=" => some (some .shiftLeft)
  | ">>=" => some (some .shiftRight)
  | "&=" => some (some .bitAnd)
  | "^=" => some (some .bitXor)
  | "|=" => some (some .bitOr)
  | _ => none

def truth (b : Bool) : Int64 := if b then 1 else 0

def tooLarge (a b : Int64) : Bool :=
  a = .minValue && b = -1

def Operation.value (a b : Int64) : Operation → Except ArithmeticError Int64
  | .add => .ok (a + b)
  | .subtract => .ok (a - b)
  | .multiply => .ok (a * b)
  | .divide => if b = 0 then .error .divisionByZero
    else if tooLarge a b then .error .quotientTooLarge else .ok (a / b)
  | .remainder => if b = 0 then .error .divisionByZero
    else if tooLarge a b then .error .quotientTooLarge else .ok (a % b)
  | .shiftLeft => .ok (a <<< b)
  | .shiftRight => .ok (a >>> b)
  | .less => .ok (truth (a < b))
  | .lessEqual => .ok (truth (a ≤ b))
  | .greater => .ok (truth (b < a))
  | .greaterEqual => .ok (truth (b ≤ a))
  | .equal => .ok (truth (a = b))
  | .unequal => .ok (truth (a ≠ b))
  | .bitAnd => .ok (a &&& b)
  | .bitXor => .ok (a ^^^ b)
  | .bitOr => .ok (a ||| b)

def State.numberOf (s : State) (name : Name) : Except ArithmeticError Int64 :=
  let text := (s.get? name).getD []
  if text.all isSpace then .ok 0
  else
    match word? true text with
    | some n => .ok n
    | none => .error (.ofVariable (State.illegalNumber text))

namespace Expression

/-- What is still to be read of an expression, and the state with what was assigned so far. -/
structure Position where
  rest : List Lexeme
  state : State

abbrev Evaluation := StateT Position (Except ArithmeticError)

def next? : Evaluation (Option Lexeme) :=
  return (← get).rest.head?

def skip (n : Nat) : Evaluation Unit :=
  modify fun p => { p with rest := p.rest.drop n }

def assign (name : Name) (value : Int64) : Evaluation Unit := do
  let p ← get
  match p.state.put name (toString value).toList with
  | .ok state => set { p with state }
  | .error message => throw (.ofVariable message)

mutual

/-- An expression, which may be an assignment. Its value counts, or it is only read. -/
def assignment (n : Nat) (counts : Bool) : Evaluation Int64 :=
  match n with
  | 0 => throw (.expecting "primary")
  | n + 1 => do
    let found := match (← get).rest with
      | .name name :: .sign s :: _ => (Operation.ofAssignment? s).map (name, ·)
      | _ => none
    match found with
    | none => choice n counts
    | some (name, operation) =>
      skip 2
      let value ← assignment n counts
      if !counts then return value
      else
        let value ← match operation with
          | none => pure value
          | some operation => operation.value (← (← get).state.numberOf name) value
        assign name value
        return value

def choice (n : Nat) (counts : Bool) : Evaluation Int64 :=
  match n with
  | 0 => throw (.expecting "primary")
  | n + 1 => do
    let test ← either n counts
    if (← next?) ≠ some (.sign "?") then return test
    else
      skip 1
      let yes ← assignment n (counts && test ≠ 0)
      if (← next?) ≠ some (.sign ":") then throw (.expecting "':'")
      skip 1
      let no ← choice n (counts && test = 0)
      return if test ≠ 0 then yes else no

def either (n : Nat) (counts : Bool) : Evaluation Int64 :=
  match n with
  | 0 => throw (.expecting "primary")
  | n + 1 => do
    let a ← both n counts
    if (← next?) ≠ some (.sign "||") then return a
    else
      skip 1
      let b ← either n (counts && a = 0)
      return truth (a ≠ 0 || b ≠ 0)

def both (n : Nat) (counts : Bool) : Evaluation Int64 :=
  match n with
  | 0 => throw (.expecting "primary")
  | n + 1 => do
    let a ← operand n counts 0
    if (← next?) ≠ some (.sign "&&") then return a
    else
      skip 1
      let b ← both n (counts && a ≠ 0)
      return truth (a ≠ 0 && b ≠ 0)

def operand (n : Nat) (counts : Bool) (strength : Nat) : Evaluation Int64 :=
  match n with
  | 0 => throw (.expecting "primary")
  | n + 1 => do joined n counts strength (← single n counts)

def joined (n : Nat) (counts : Bool) (strength : Nat) (a : Int64) : Evaluation Int64 :=
  match n with
  | 0 => throw (.expecting "primary")
  | n + 1 => do
    let found : Option (Nat × Operation) := match ← next? with
      | some (.sign s) => (Operation.ofSign? s).filter fun found => strength ≤ found.1
      | _ => none
    match found with
    | none => return a
    | some (own, operation) =>
      skip 1
      let b ← operand n counts (own + 1)
      let value ← if counts then operation.value a b else pure b
      joined n counts strength value

def single (n : Nat) (counts : Bool) : Evaluation Int64 :=
  match n with
  | 0 => throw (.expecting "primary")
  | n + 1 => do
    let found ← next?
    skip 1
    match found with
    | some (.number value) => return value
    | some (.name name) => if counts then (← get).state.numberOf name else return 0
    | some (.sign "+") => single n counts
    | some (.sign "-") => return -(← single n counts)
    | some (.sign "~") => return ~~~(← single n counts)
    | some (.sign "!") => return truth ((← single n counts) = 0)
    | some (.sign "(") =>
      let value ← assignment n counts
      if (← next?) ≠ some (.sign ")") then throw (.expecting "')'")
      skip 1
      return value
    | _ => throw (.expecting "primary")

end

def whole (n : Nat) : Evaluation Int64 := do
  let value ← assignment n true
  if (← next?).isSome then throw (.expecting "EOF")
  return value

end Expression

def State.calculate (s : State) (cs : List Char) : Except ArithmeticError (Int64 × State) := do
  let units := lexemes cs (cs.length + 1)
  let (value, p) ← (Expression.whole (8 * units.length + 16)).run ⟨units, s⟩
  return (value, p.state)

end SnippetLens.Shell
