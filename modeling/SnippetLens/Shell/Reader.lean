import SnippetLens.Shell.Builtin
import SnippetLens.Shell.Source

/-!
Reading scripts. A script is read one complete command at a time, up to the line break after it,
so that what stands before a fault runs before the fault is reported.

The grammar is read by functions that call each other with one less to spend; what they are given
to spend is a multiple of the length of the text, and every character is read through a bounded
number of calls.
-/

namespace SnippetLens.Shell

namespace Reader

def take? (cs : List Char) : Reader Bool := do
  if cs.isPrefixOf (← ahead) then
    skip cs.length
    return true
  else return false

def closingWords : List String :=
  ["then", "else", "elif", "fi", "do", "done", "esac", "\x7d"]

def closesPart (cs : List Char) : Bool :=
  (plainWord? cs).any closingWords.contains

def closesInner (cs : List Char) : Bool :=
  match cs with
  | [] | ')' :: _ | ';' :: ';' :: _ => true
  | cs => closesPart cs

def directionAt : List Char → Option (Direction × Nat)
  | '<' :: '<' :: '-' :: _ => some (.document, 3)
  | '<' :: '<' :: _ => some (.document, 2)
  | '<' :: '&' :: _ => some (.duplicate, 2)
  | '<' :: '>' :: _ => some (.readWrite, 2)
  | '<' :: _ => some (.read, 1)
  | '>' :: '>' :: _ => some (.append, 2)
  | '>' :: '&' :: _ => some (.duplicate, 2)
  | '>' :: '|' :: _ => some (.overwrite, 2)
  | '>' :: _ => some (.write, 1)
  | _ => none

/-- The start of a redirection: its descriptor, its direction, and how many characters it takes. A
digit before the sign is the descriptor. -/
def redirectionAt (cs : List Char) : Option (Nat × Direction × Nat) :=
  let digits := (cs.takeWhile Char.isDigit).take 1
  let sign := cs.drop digits.length
  match directionAt sign with
  | none => none
  | some (direction, n) =>
    let usual := if sign.head? = some '<' then 0 else 1
    let given := digits.head?.map fun c => c.toNat - '0'.toNat
    some (given.getD usual, direction, digits.length + n)

/-- The name of what stands next, as messages tell it; a keyword is told only where keywords are
looked for. -/
def describe (forKeywords : Bool) (cs : List Char) : String :=
  let quote := fun (s : String) => "\"" ++ s ++ "\""
  match cs with
  | [] => "end of file"
  | '\n' :: _ => "newline"
  | '&' :: '&' :: _ => quote "&&"
  | '|' :: '|' :: _ => quote "||"
  | ';' :: ';' :: _ => quote ";;"
  | c :: _ =>
    if (redirectionAt cs).isSome then "redirection"
    else if isDelimiter c then quote (String.ofList [c])
    else
      match plainWord? cs with
      | some word => if forKeywords && keywords.contains word then quote word else "word"
      | none => "word"

def startsWord (cs : List Char) : Bool :=
  match cs with
  | [] => false
  | c :: _ => !isDelimiter c && (redirectionAt cs).isNone

/-- Refuses a text because of what stands next. A line break there has been passed over, and a word
has been read, which may be refused for itself. -/
def refuseNext (word : Reader Word) (fault : Fault) : Reader α := do
  let rest ← ahead
  if startsWord rest then
    let _ ← word
    refuse fault
  else
    let line := (← get).line
    throw ⟨if rest.head? = some '\n' then line + 1 else line, fault⟩

def refuseAtEnd (fault : Fault) : Reader α := do
  skip (← get).left
  refuse fault

def exhausted : Reader α :=
  refuse (.unexpected (describe true []) none)

def unexpected (word : Reader Word) (expected : Option String) (forKeywords : Bool := true) :
    Reader α := do
  refuseNext word (.unexpected (describe forKeywords (← ahead)) expected)

def expectWord (word : Reader Word) (keyword : String) : Reader Unit := do
  if plainWord? (← aheadCommand) = some keyword then skip keyword.length
  else unexpected word (some keyword)

def expectSign (word : Reader Word) (sign : Char) (forKeywords : Bool := true) : Reader Unit := do
  if !(← take? [sign]) then unexpected word (some (String.ofList [sign])) forKeywords

def takeSemicolon? : Reader Bool := do
  if [';', ';'].isPrefixOf (← ahead) then return false else take? [';']

/-! ### Words -/

inductive Mode where
  | bare
  /-- Between quotation marks, which may be in braces. -/
  | doubleQuoted (inBraces : Bool)
  /-- After the sign of a rule, in braces. -/
  | braced (inQuotes : Bool)
  | document
  /-- In arithmetic, inside so many parentheses. -/
  | arithmetic (depth : Nat)
  deriving DecidableEq, Repr

def Mode.quoted : Mode → Bool
  | .bare => false
  | .braced inQuotes => inQuotes
  | .doubleQuoted _ | .document | .arithmetic _ => true

def Mode.ends : Mode → List Char → Option Nat
  | .bare, [] | .document, [] => some 0
  | .bare, c :: _ => if isDelimiter c then some 0 else none
  | .doubleQuoted _, '"' :: _ => some 1
  | .braced _, '}' :: _ => some 1
  | .arithmetic 0, ')' :: ')' :: _ => some 2
  | _, _ => none

def Mode.fault : Mode → Fault
  | .bare | .document | .doubleQuoted _ | .braced true => .openQuote
  | .braced false => .openBrace
  | .arithmetic _ => .openArithmetic

def Mode.escapes (mode : Mode) (c : Char) : Bool :=
  match mode with
  | .bare | .braced false => true
  | .doubleQuoted false => ['$', '`', '"', '\\', '\n'].contains c
  | .doubleQuoted true | .braced true => ['$', '`', '"', '\\', '\n', '}'].contains c
  | .arithmetic _ => ['$', '`', '"', '\\', '\n'].contains c
  | .document => ['$', '`', '\\', '\n'].contains c

def Mode.isBraced : Mode → Bool
  | .braced _ => true
  | _ => false

def Mode.keepsQuotes : Mode → Bool
  | .document | .arithmetic _ => true
  | _ => false

def consText (quoted : Bool) (cs : List Char) : Word → Word
  | .text q ds :: rest =>
    if q = quoted then .text q (cs ++ ds) :: rest else .text quoted cs :: .text q ds :: rest
  | pieces => .text quoted cs :: pieces

/-- The parts between quotation marks. There is a field there, unless they are the arguments and
nothing else. -/
def quotedPieces (inner : Word) : Word :=
  match inner with
  | [.parameter _ ['@'] .value []] | .text .. :: _ => inner
  | inner => .text true [] :: inner

def backquoted (inQuotes : Bool) : List Char → Option (List Char × Nat)
  | [] => none
  | '`' :: _ => some ([], 1)
  | '\\' :: c :: r => do
    let (body, n) ← backquoted inQuotes r
    if ['`', '$', '\\'].contains c || inQuotes && c = '"' then (c :: body, n + 2)
    else ('\\' :: c :: body, n + 2)
  | c :: r => do
    let (body, n) ← backquoted inQuotes r
    (c :: body, n + 1)

def parameterAt : List Char → Name
  | [] => []
  | c :: r =>
    if startsName c then nameAt (c :: r)
    else if c.isDigit || ['@', '*', '#', '?', '-', '$', '!'].contains c then [c]
    else []

inductive BraceStart where
  /-- The length of the value of a parameter, with so many characters up to its brace. -/
  | length (name : Name) (count : Nat)
  | named (name : Name)
  /-- No parameter; so many characters are passed over. -/
  | refused (count : Nat)

/-- What stands after the brace of a parameter. A number sign asks for a length if what follows it
is a parameter and then the brace is closed; otherwise it is a parameter itself. -/
def braceStart (cs : List Char) : BraceStart :=
  let digits := fun (cs : List Char) => cs.takeWhile Char.isDigit
  let nameOrNumber := fun (cs : List Char) =>
    if (digits cs).isEmpty then nameAt cs else digits cs
  match cs with
  | [] | '}' :: _ => .refused 0
  | '#' :: c :: r =>
    match nameOrNumber (c :: r) with
    | [] =>
      if c ≠ '}' && r.head? = some '}' then
        if (parameterAt [c]).isEmpty then .refused 2 else .length [c] 3
      else .named ['#']
    | name =>
      if (r.drop (name.length - 1)).head? = some '}' then .length name (name.length + 2)
      else .refused (name.length + 1)
  | c :: r =>
    match nameOrNumber (c :: r) with
    | [] => if (parameterAt [c]).isEmpty then .refused 1 else .named [c]
    | name => .named name

def ruleAt : List Char → Option (Rule × Nat)
  | '}' :: _ => some (.value, 0)
  | ':' :: '-' :: _ => some (.otherwise true, 2)
  | '-' :: _ => some (.otherwise false, 1)
  | ':' :: '=' :: _ => some (.assign true, 2)
  | '=' :: _ => some (.assign false, 1)
  | ':' :: '?' :: _ => some (.demand true, 2)
  | '?' :: _ => some (.demand false, 1)
  | ':' :: '+' :: _ => some (.instead true, 2)
  | '+' :: _ => some (.instead false, 1)
  | '#' :: '#' :: _ => some (.trim true true, 2)
  | '#' :: _ => some (.trim true false, 1)
  | '%' :: '%' :: _ => some (.trim false true, 2)
  | '%' :: _ => some (.trim false false, 1)
  | _ => none

/-- The rule is about the form of the value, so its word is a pattern even in quotes. -/
def isTrim : Rule → Bool
  | .trim .. => true
  | _ => false

def assignment? : Word → Option (Name × Word)
  | .text false cs :: rest =>
    let name := nameAt cs
    match name, cs.drop name.length with
    | _ :: _, '=' :: value => some (name, if value.isEmpty then rest else .text false value :: rest)
    | _, _ => none
  | _ => none

def inBackground (line : Nat) : Command → Command
  | .pipe _ parts => .pipe true parts
  | .redirected line body redirections => .subshell true line body redirections
  | c => .subshell true line c []

/-! ### The grammar -/

mutual

def pieces (n : Nat) (mode : Mode) : Reader Word :=
  match n with
  | 0 => refuse mode.fault
  | n + 1 => do
    let rest := (← get).rest
    match mode.ends rest with
    | some k => skip k; return []
    | none =>
      match rest with
      | [] => refuse mode.fault
      | '\'' :: r =>
        if mode.quoted then skip 1; return consText true ['\''] (← pieces n mode)
        else
          let body := r.takeWhile (· ≠ '\'')
          if body.length = r.length then refuseAtEnd .openQuote
          else skip (body.length + 2); return consText true body (← pieces n mode)
      | '"' :: _ =>
        if mode.keepsQuotes then skip 1; return consText true ['"'] (← pieces n mode)
        else
          skip 1
          let inner ← pieces n (.doubleQuoted mode.isBraced)
          return quotedPieces inner ++ (← pieces n mode)
      | '\\' :: c :: _ =>
        skip 2
        if !mode.escapes c then return consText mode.quoted ['\\', c] (← pieces n mode)
        else if c = '\n' then pieces n mode
        else return consText true [c] (← pieces n mode)
      | '$' :: _ =>
        skip 1
        let piece ← dollar n mode.quoted
        match piece with
        | .text q cs => return consText q cs (← pieces n mode)
        | piece => return piece :: (← pieces n mode)
      | '`' :: r =>
        match backquoted mode.quoted r with
        | none => refuseAtEnd .openBackquote
        | some (body, k) =>
          skip (k + 1)
          let command ← within body 1 (inner n)
          return .output mode.quoted command :: (← pieces n mode)
      | c :: r =>
        let run := if isSpecial c then [] else r.takeWhile fun d => !isSpecial d
        skip (run.length + 1)
        let mode' := match mode, c with
          | .arithmetic depth, '(' => .arithmetic (depth + 1)
          | .arithmetic depth, ')' => .arithmetic (depth - 1)
          | mode, _ => mode
        return consText mode.quoted (c :: run) (← pieces n mode')

def dollar (n : Nat) (quoted : Bool) : Reader Piece :=
  match n with
  | 0 => refuse .openQuote
  | n + 1 => do
    match (← get).rest with
    | '(' :: '(' :: _ =>
      skip 2
      return .arithmetic quoted (← pieces n (.arithmetic 0))
    | '(' :: _ =>
      skip 1
      let command ← inner n
      expectSign (pieces n .bare) ')'
      return .output quoted command
    | '{' :: r =>
      skip 1
      match braceStart r with
      | .length name count =>
        skip count
        return .parameter quoted name .length []
      | .named name =>
        skip name.length
        braced n quoted name
      | .refused count =>
        skip count
        refused n quoted
    | rest =>
      match parameterAt rest with
      | [] => return .text quoted ['$']
      | name =>
        skip name.length
        return .parameter quoted name .value []

/-- A parameter in braces, after its name. A colon before the end of the braces only counts as part
of a rule, so that another end is looked for. A line break in the place of a rule ends no line. -/
def braced (n : Nat) (quoted : Bool) (name : Name) : Reader Piece :=
  match n with
  | 0 => refuse .openBrace
  | n + 1 => do
    let rest := (← get).rest
    match rest, ruleAt rest with
    | _, some (rule, k) =>
      skip k
      return .parameter quoted name rule (← pieces n (.braced (quoted && !isTrim rule)))
    | ':' :: '}' :: _, none =>
      skip 2
      return .parameter quoted name .value (← pieces n (.braced quoted))
    | _, none =>
      let line := (← get).line
      skip (if rest.head? = some ':' then 2 else 1)
      modify ({ · with line })
      refused n quoted

def refused (n : Nat) (quoted : Bool) : Reader Piece :=
  match n with
  | 0 => refuse .openBrace
  | n + 1 => do
    let _ ← pieces n (.braced quoted)
    return .parameter quoted [] .value []

def redirection? (n : Nat) : Reader (Option Redirection) :=
  match n with
  | 0 => return none
  | n + 1 => do
    let cs ← ahead
    match redirectionAt cs with
    | none => return none
    | some (descriptor, direction, k) =>
      skip k
      let rest ← ahead
      if !startsWord rest then unexpected (pieces n .bare) none
      else if direction = .document then
        match delimiterAt none rest with
        | none => refuseAtEnd .openQuote
        | some ⟨delimiter, quoted, length⟩ =>
          skip length
          let dropTabs := (cs.take k).getLast? = some '-'
          let line := (← get).line + (← get).owed + 1
          let body ← takeDocument ⟨delimiter, dropTabs, quoted⟩
          if quoted then return some (.mk descriptor direction [.text true body])
          else
            let text := do
              try pieces n .document catch e => throw e.inDocument
            return some (.mk descriptor direction (← within body line text))
      else return some (.mk descriptor direction (← pieces n .bare))

def redirections (n : Nat) : Reader (List Redirection) :=
  match n with
  | 0 => return []
  | n + 1 => do
    match ← redirection? n with
    | none => return []
    | some r => return r :: (← redirections n)

def simple (n line : Nat) (assignments : List (Name × Word)) (words : List Word)
    (redirected : List Redirection) : Reader Command :=
  match n with
  | 0 => exhausted
  | n + 1 => do
    let rest ← if words.isEmpty then aheadFirst else aheadArgument
    match ← redirection? n with
    | some r => simple n line assignments words (redirected ++ [r])
    | none =>
      match rest, words, assignments, redirected with
      | '(' :: _, [word], [], [] =>
        skip 1
        expectSign (pieces n .bare) ')' false
        match word with
        | [.text false cs] =>
          if nameAt cs = cs && !Builtin.isSpecialName cs then
            skipLines rest.length
            return .function cs (← command n)
          else refuse .functionName
        | _ => refuse .functionName
      | _, _, _, _ =>
        if !startsWord rest then
          return .simple line assignments words redirected
        else
          let word ← pieces n .bare
          let isFirst := words.isEmpty && assignments.isEmpty && redirected.isEmpty
          let behind := (← get).line
          let line := if isFirst then behind else line
          match words, assignment? word with
          | [], some a => simple n line (assignments ++ [a]) words redirected
          | _, _ => simple n line assignments (words ++ [word]) redirected

def wordList (n : Nat) : Reader (List Word) :=
  match n with
  | 0 => return []
  | n + 1 => do
    if !startsWord (← ahead) then return []
    else
      let word ← pieces n .bare
      return word :: (← wordList n)

/-- The patterns of an arm, up to the parenthesis. A sign in the place of a pattern stands for
none. -/
def patterns (n : Nat) : Reader (List Word) :=
  match n with
  | 0 => exhausted
  | n + 1 => do
    let rest ← ahead
    let first ← match rest, redirectionAt rest with
      | [], _ => unexpected (pieces n .bare) (some ")")
      | _, some (_, _, k) => skip k; pure []
      | c :: _, none =>
        if isDelimiter c then
          skip (if [[';', ';'], ['&', '&'], ['|', '|']].any (·.isPrefixOf rest) then 2 else 1)
          pure []
        else pure [← pieces n .bare]
    if (← ahead).head? = some '|' && (← ahead).take 2 ≠ ['|', '|'] then
      skip 1
      return first ++ (← patterns n)
    else
      expectSign (pieces n .bare) ')' false
      return first

def arms (n : Nat) : Reader (List (List Word × Command)) :=
  match n with
  | 0 => exhausted
  | n + 1 => do
    skipLines (← get).rest.length
    let rest ← ahead
    if plainWord? rest = some "esac" then
      skip 4
      return []
    else
      let _ ← take? ['(']
      if (← ahead).isEmpty then unexpected (pieces n .bare) (some ")")
      else
        let words ← patterns n
        let body ← inner n
        if ← take? [';', ';'] then return (words, body) :: (← arms n)
        else if plainWord? (← ahead) = some "esac" then return (words, body) :: (← arms n)
        else unexpected (pieces n .bare) (some ";;")

def branches (n : Nat) (test : Command) : Reader Command :=
  match n with
  | 0 => exhausted
  | n + 1 => do
    expectWord (pieces n .bare) "then"
    let yes ← commands n
    match plainWord? (← ahead) with
    | some "elif" =>
      skip 4
      let test' ← commands n
      return .conditional test yes (← branches n test')
    | some "else" =>
      skip 4
      let no ← commands n
      expectWord (pieces n .bare) "fi"
      return .conditional test yes no
    | _ =>
      expectWord (pieces n .bare) "fi"
      return .conditional test yes .nothing

def body (n : Nat) : Reader Command :=
  match n with
  | 0 => exhausted
  | n + 1 => do
    expectWord (pieces n .bare) "do"
    let c ← commands n
    expectWord (pieces n .bare) "done"
    return c

def compound? (n : Nat) : Reader (Option Command) :=
  match n with
  | 0 => return none
  | n + 1 => do
    let rest ← ahead
    let line := (← get).line
    match rest with
    | '(' :: _ =>
      skip 1
      let c ← commands n
      expectSign (pieces n .bare) ')'
      return some (.subshell false line c [])
    | _ =>
      match plainWord? rest with
      | some "\x7b" =>
        skip 1
        let c ← commands n
        expectWord (pieces n .bare) "\x7d"
        return some c
      | some "if" =>
        skip 2
        let test ← commands n
        return some (← branches n test)
      | some "while" =>
        skip 5
        let test ← commands n
        return some (.loop true test (← body n))
      | some "until" =>
        skip 5
        let test ← commands n
        return some (.loop false test (← body n))
      | some "for" =>
        skip 3
        let next ← ahead
        let name := nameAt next
        if next.isEmpty || name.isEmpty || plainWord? next ≠ some (String.ofList name) then
          refuseNext (pieces n .bare) .loopVariable
        else
          skip name.length
          skipLines rest.length
          if plainWord? (← aheadCommand) = some "in" then
            skip 2
            let words ← wordList n
            if !(← takeSemicolon?) && !(← ahead).head? = some '\n' then
              unexpected (pieces n .bare) none
            skipLines rest.length
            return some (.each line name (some words) (← body n))
          else
            let _ ← takeSemicolon?
            skipLines rest.length
            return some (.each line name none (← body n))
      | some "case" =>
        skip 4
        if !startsWord (← ahead) then unexpected (pieces n .bare) (some "word")
        else
          let subject ← pieces n .bare
          skipLines rest.length
          expectWord (pieces n .bare) "in"
          return some (.choice line subject (← arms n))
      | _ => return none

def command (n : Nat) : Reader Command :=
  match n with
  | 0 => exhausted
  | n + 1 => do
    let rest ← aheadCommand
    let line := (← get).line
    match ← compound? n with
    | some c =>
      match ← redirections n with
      | [] => return c
      | rs =>
        match c with
        | .subshell background line body _ => return .subshell background line body rs
        | c => return .redirected line c rs
    | none =>
      if (plainWord? rest).any keywords.contains ||
          !startsWord rest && (redirectionAt rest).isNone then
        unexpected (pieces n .bare) none
      else simple n line [] [] []

def parts (n : Nat) : Reader (List Command) :=
  match n with
  | 0 => exhausted
  | n + 1 => do
    let first ← command n
    let rest ← ahead
    match rest with
    | '|' :: '|' :: _ => return [first]
    | '|' :: _ =>
      skip 1
      skipLines rest.length
      return first :: (← parts n)
    | _ => return [first]

def pipeline (n : Nat) : Reader Command :=
  match n with
  | 0 => exhausted
  | n + 1 => do
    let negated := plainWord? (← aheadCommand) = some "!"
    if negated then skip 1
    let c ← match ← parts n with
      | [c] => pure c
      | cs => pure (.pipe false cs)
    return if negated then .negation c else c

/-- The rest of a chain of commands of which one may decide whether the next one runs. -/
def chain (n : Nat) (first : Command) : Reader Command :=
  match n with
  | 0 => return first
  | n + 1 => do
    let rest ← ahead
    match rest with
    | '&' :: '&' :: _ =>
      skip 2
      skipLines rest.length
      chain n (.both first (← pipeline n))
    | '|' :: '|' :: _ =>
      skip 2
      skipLines rest.length
      chain n (.either first (← pipeline n))
    | _ => return first

def chains (n : Nat) (acrossLines : Bool) : Reader Command :=
  match n with
  | 0 => exhausted
  | n + 1 => do
    let c ← chain n (← pipeline n)
    let rest ← ahead
    let line := (← get).line
    let c := if rest.head? = some '&' then inBackground line c else c
    match rest with
    | ';' :: ';' :: _ => return c
    | ';' :: _ | '&' :: _ =>
      skip 1
      if acrossLines then skipLines rest.length
      more n acrossLines c
    | '\n' :: _ =>
      if acrossLines then
        skipLines rest.length
        more n acrossLines c
      else return c
    | _ => return c

def more (n : Nat) (acrossLines : Bool) (first : Command) : Reader Command :=
  match n with
  | 0 => exhausted
  | n + 1 => do
    let rest ← aheadCommand
    match rest with
    | [] | ')' :: _ | '\n' :: _ | ';' :: ';' :: _ => return first
    | _ => if closesPart rest then return first else return .sequence first (← chains n acrossLines)

def commands (n : Nat) : Reader Command :=
  match n with
  | 0 => exhausted
  | n + 1 => do
    if (← nextCommand).isEmpty then return .nothing else chains n true

def inner (n : Nat) : Reader Command :=
  match n with
  | 0 => exhausted
  | n + 1 => do
    if closesInner (← nextCommand) then return .nothing else chains n true

end

end Reader

inductive Reading where
  | nothing
  /-- A complete command, and whether the script ends directly behind it. -/
  | complete (command : Command) (isLast : Bool)

def Source.next (s : Source) : Except SyntaxError (Reading × Source) :=
  let read : Reader Reading := do
    if (← Reader.nextCommand).isEmpty then return .nothing
    else
      let aliased := (s.aliases.map (·.text.length)).foldl (· + ·) 1
      let fuel := 16 * (s.left + 4) * aliased
      let c ← Reader.chains fuel false
      match ← Reader.ahead with
      | [] => return .complete c true
      | '\n' :: _ =>
        Reader.skip 1
        return .complete c false
      | _ => Reader.unexpected (Reader.pieces fuel .bare) none
  read.run s

def Source.document (s : Source) : Except SyntaxError Word :=
  match (Reader.pieces (16 * (s.left + 4)) .document).run s with
  | .ok (word, _) => .ok word
  | .error e => .error e.inDocument

end SnippetLens.Shell
