import SnippetLens.Shell.State

/-!
Conditions on texts, numbers and files. A condition of three words whose second one is an operator
is always about the other two, so that a text that looks like a sign is still a text; longer
conditions are read by a grammar. All parts of a condition are looked at, even if the first ones
decide.
-/

namespace SnippetLens.Shell.Condition

open Files

inductive Unary where
  | isEmpty
  | isFilled
  | exists
  | isFile
  | isDirectory
  | isDevice
  | isLink
  | hasContent
  | isProgram
  | isTerminal
  /-- What no file here is. -/
  | isOther
  deriving DecidableEq, Repr

inductive Binary where
  | same
  | different
  | before
  | after
  | equal
  | unequal
  | less
  | lessEqual
  | greater
  | greaterEqual
  | newer
  | older
  | sameFile
  deriving DecidableEq, Repr

inductive Token where
  | nothing
  | operand
  | unary (operator : Unary)
  | binary (operator : Binary)
  | not
  | and
  | or
  | opening
  | closing
  deriving DecidableEq, Repr

def operator? (word : List Char) : Option Token :=
  match String.ofList word with
  | "-z" => some (.unary .isEmpty)
  | "-n" => some (.unary .isFilled)
  | "-e" | "-r" | "-w" | "-O" | "-G" => some (.unary .exists)
  | "-f" => some (.unary .isFile)
  | "-d" => some (.unary .isDirectory)
  | "-c" => some (.unary .isDevice)
  | "-h" | "-L" => some (.unary .isLink)
  | "-s" => some (.unary .hasContent)
  | "-x" => some (.unary .isProgram)
  | "-t" => some (.unary .isTerminal)
  | "-b" | "-p" | "-u" | "-g" | "-k" | "-S" => some (.unary .isOther)
  | "=" => some (.binary .same)
  | "!=" => some (.binary .different)
  | "<" => some (.binary .before)
  | ">" => some (.binary .after)
  | "-eq" => some (.binary .equal)
  | "-ne" => some (.binary .unequal)
  | "-lt" => some (.binary .less)
  | "-le" => some (.binary .lessEqual)
  | "-gt" => some (.binary .greater)
  | "-ge" => some (.binary .greaterEqual)
  | "-nt" => some (.binary .newer)
  | "-ot" => some (.binary .older)
  | "-ef" => some (.binary .sameFile)
  | "!" => some .not
  | "-a" => some .and
  | "-o" => some .or
  | "(" => some .opening
  | ")" => some .closing
  | _ => none

def binary? (word : List Char) : Option Binary :=
  match operator? word with
  | some (.binary operator) => some operator
  | _ => none

/-- Whether an operator on one word has none behind it, or an operator on two words in its place;
then it is a text itself. -/
def standsAlone : List (List Char) → Bool
  | [] => true
  | [_] => false
  | word :: _ => (binary? word).isSome

def lex : List (List Char) → Token
  | [] => .nothing
  | word :: rest =>
    match operator? word with
    | some (.unary operator) => if standsAlone rest then .operand else .unary operator
    | some .opening => if rest.isEmpty then .operand else .opening
    | some token => token
    | none => .operand

def numberOf (word : List Char) : Except String Int64 :=
  match word? false word with
  | some n => .ok n
  | none => .error (State.illegalNumber word)

def Unary.holds (files : FileTree) (word : List Char) : Unary → Except String Bool
  | isEmpty => .ok word.isEmpty
  | isFilled => .ok !word.isEmpty
  | .exists => .ok (files.reaches (pathOf word))
  | isFile => .ok (files.isFile (pathOf word))
  | isDirectory => .ok (files.isDirectory (pathOf word))
  | isProgram => .ok (files.isProgram (pathOf word) || files.isDirectory (pathOf word))
  | isDevice =>
    match files.status (pathOf word) with
    | .ok .nullDevice => .ok true
    | _ => .ok false
  | isLink =>
    match (files.locate (pathOf word) false).map files.find? with
    | .ok (some (.link _)) => .ok true
    | _ => .ok false
  | hasContent =>
    match files.status (pathOf word) with
    | .ok (.file content _) => .ok !content.isEmpty
    | .ok .directory | .ok .interpreter => .ok true
    | _ => .ok false
  | isTerminal => do
    let _ ← numberOf word
    return false
  | isOther => .ok false

/-- Whether a condition on two words holds. No file is known to be newer than another one. -/
def Binary.holds (files : FileTree) (a b : List Char) : Binary → Except String Bool
  | same => .ok (a = b)
  | different => .ok (a ≠ b)
  | before => .ok (String.ofList a < String.ofList b)
  | after => .ok (String.ofList b < String.ofList a)
  | equal => return (← numberOf a) = (← numberOf b)
  | unequal => return (← numberOf a) ≠ (← numberOf b)
  | less => return (← numberOf a) < (← numberOf b)
  | lessEqual => return (← numberOf a) ≤ (← numberOf b)
  | greater => do
    let a ← numberOf a
    return (← numberOf b) < a
  | greaterEqual => do
    let a ← numberOf a
    return (← numberOf b) ≤ a
  | newer | older => .ok false
  | sameFile =>
    if files.reaches (pathOf a) && files.reaches (pathOf b) then
      .ok ((files.locate (pathOf a)).toOption = (files.locate (pathOf b)).toOption)
    else .ok false

abbrev Answer := Except String (Bool × List (List Char))

def argumentExpected (operator : List Char) : Except String α :=
  .error (Text.Octets.toText operator ++ ": argument expected")

mutual

def disjunction (files : FileTree) (n : Nat) (token : Token) (words : List (List Char)) :
    Answer :=
  match n with
  | 0 => .ok (false, words)
  | n + 1 => do
    let (a, words) ← conjunction files n token words
    if lex words.tail ≠ .or then return (a, words)
    else
      let (b, words) ← disjunction files n (lex (words.drop 2)) (words.drop 2)
      return (a || b, words)

def conjunction (files : FileTree) (n : Nat) (token : Token) (words : List (List Char)) :
    Answer :=
  match n with
  | 0 => .ok (false, words)
  | n + 1 => do
    let (a, words) ← negation files n token words
    if lex words.tail ≠ .and then return (a, words)
    else
      let (b, words) ← conjunction files n (lex (words.drop 2)) (words.drop 2)
      return (a && b, words)

def negation (files : FileTree) (n : Nat) (token : Token) (words : List (List Char)) : Answer :=
  match n with
  | 0 => .ok (false, words)
  | n + 1 =>
    if token ≠ .not then single files n token words
    else do
      let next := lex words.tail
      let (a, words) ← negation files n next (if next = .nothing then words else words.tail)
      return (!a, words)

def single (files : FileTree) (n : Nat) (token : Token) (words : List (List Char)) : Answer :=
  match n with
  | 0 => .ok (false, words)
  | n + 1 =>
    match token, words with
    | .nothing, words => .ok (false, words)
    | .opening, _ :: words =>
      if lex words = .closing then .ok (false, words)
      else do
        let (a, words) ← disjunction files n (lex words) words
        if lex words.tail = .closing then return (a, words.tail)
        else .error "closing paren expected"
    | .unary operator, _ :: word :: rest => do
      return (← operator.holds files word, word :: rest)
    | .unary _, [word] => argumentExpected word
    | _, a :: rest =>
      match rest with
      | [] => .ok (!a.isEmpty, [a])
      | word :: rest =>
        match binary? word, rest with
        | some operator, b :: rest => do return (← operator.holds files a b, b :: rest)
        | some _, [] => argumentExpected word
        | none, rest => .ok (!a.isEmpty, a :: word :: rest)
    | _, [] => .ok (false, [])

end

def whole (files : FileTree) (token : Token) (words : List (List Char)) : Except String Bool := do
  let (a, rest) ← disjunction files (4 * words.length + 4) token words
  match rest with
  | word :: _ :: _ =>
    let start := if word.isEmpty then "" else Text.Octets.toText word ++ ": "
    .error (start ++ "unexpected operator")
  | _ => return a

/-- Whether a condition holds. The words of a short condition have fixed places, and of two signs
that turn it around only one counts there. -/
def holds (files : FileTree) (words : List (List Char)) : Except String Bool :=
  match words with
  | [] => .ok false
  | [a, operator, b] =>
    if (binary? operator).isSome then whole files .operand words
    else if a = ['('] && b = [')'] then whole files (lex [operator]) [operator]
    else if a = ['!'] then (whole files (lex [operator, b]) [operator, b]).map not
    else whole files (lex words) words
  | [a, b, c, d] =>
    if a = ['('] && d = [')'] then whole files (lex [b, c]) [b, c]
    else if a = ['!'] then
      let inner :=
        if (binary? c).isSome then whole files .operand [b, c, d]
        else if b = ['('] && d = [')'] then whole files (lex [c]) [c]
        else if b = ['!'] then whole files (lex [c, d]) [c, d]
        else whole files (lex [b, c, d]) [b, c, d]
      inner.map not
    else whole files (lex words) words
  | words => whole files (lex words) words

end SnippetLens.Shell.Condition
