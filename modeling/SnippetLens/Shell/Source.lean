import SnippetLens.Shell.Fault
import SnippetLens.Shell.Script

/-!
The text of a script while it is read. Where a command may begin, a name that is an alias is
replaced by the text it stands for; as long as that text is being read the name is not replaced
again, so a name can be an alias for a command that begins with it.
-/

namespace SnippetLens.Shell

structure Alias where
  name : Name
  text : List Char
  deriving DecidableEq, Repr

structure Layer where
  name : Name
  /-- How many characters are left when it has been read. -/
  below : Nat
  /-- Whether a blank ends it; then the word after it may be an alias too. -/
  endsInBlank : Bool
  deriving DecidableEq, Repr

structure Source where
  rest : List Char
  /-- How many characters that is. -/
  left : Nat := rest.length
  line : Nat := 1
  /-- The lines of documents that were taken out of the text after this line. -/
  owed : Nat := 0
  aliases : List Alias := []
  layers : List Layer := []
  deriving DecidableEq, Repr

abbrev Reader := StateT Source (Except SyntaxError)

namespace Reader

def refuse (fault : Fault) : Reader α := do
  throw ⟨(← get).line, fault⟩

def skip : Nat → Reader Unit
  | 0 => return
  | n + 1 => do
    let s ← get
    match s.rest with
    | [] => return
    | '\n' :: rest =>
      set { s with rest, left := s.left - 1, line := s.line + 1 + s.owed, owed := 0 }
    | _ :: rest => set { s with rest, left := s.left - 1 }
    skip n

def isDelimiter (c : Char) : Bool :=
  [' ', '\t', '\n', ';', '&', '|', '(', ')', '<', '>'].contains c

def isSpecial (c : Char) : Bool :=
  isDelimiter c || ['\'', '"', '\\', '$', '`', '}'].contains c

def startsName (c : Char) : Bool :=
  c.isAlpha || c = '_'

def isNameChar (c : Char) : Bool :=
  c.isAlphanum || c = '_'

def nameAt : List Char → Name
  | c :: r => if startsName c then c :: r.takeWhile isNameChar else []
  | [] => []

def blanks : List Char → Nat
  | ' ' :: r => blanks r + 1
  | '\t' :: r => blanks r + 1
  | '\\' :: '\n' :: r => blanks r + 2
  | '#' :: r => (r.takeWhile (· ≠ '\n')).length + 1
  | _ => 0

def ahead : Reader (List Char) := do
  skip (blanks (← get).rest)
  return (← get).rest

def skipLines : Nat → Reader Unit
  | 0 => return
  | n + 1 => do
    match ← ahead with
    | '\n' :: _ => skip 1; skipLines n
    | _ => return

/-- The word at the start of the characters, if it is written without any special sign. -/
def plainWord? (cs : List Char) : Option String :=
  let word := cs.takeWhile fun c => c = '}' || !isSpecial c
  match word, cs.drop word.length with
  | [], _ => none
  | _, [] => some (String.ofList word)
  | _, c :: _ => if isDelimiter c then some (String.ofList word) else none

def keywords : List String :=
  ["!", "case", "do", "done", "elif", "else", "esac", "fi", "for", "if", "in", "then", "until",
    "while", "\x7b", "\x7d"]

/-! ### Aliases -/

/-- Whether the text before the next word, which has just been reached, was that of an alias that
ends in a blank. -/
def afterBlank : Reader Bool := do
  let s ← get
  let (passed, active) := s.layers.partition fun layer => s.left ≤ layer.below
  set { s with layers := active }
  return passed.any (·.endsInBlank)

def replaceBy (a : Alias) : Reader Unit := do
  skip a.name.length
  let s ← get
  let endsInBlank := a.text.getLast?.any fun c => c = ' ' || c = '\t'
  let layers := if a.text.isEmpty then s.layers else ⟨a.name, s.left, endsInBlank⟩ :: s.layers
  set { s with rest := a.text ++ s.rest, left := a.text.length + s.left, layers }

/-- The alias that the next word is. A name is none while its own text is read, and keywords come
first where they are looked for. -/
def aliasAt? (lookForKeywords : Bool) (s : Source) : Option Alias := do
  let word ← plainWord? s.rest
  if lookForKeywords && keywords.contains word then none
  let a ← s.aliases.find? fun a => String.ofList a.name = word
  if s.layers.any fun layer => layer.name = a.name && layer.below < s.left then none else some a

/-- Shows what follows, with the aliases at its start replaced, at most as many times as the number
says. -/
def replaceAliases (lookForKeywords : Bool) : Nat → Reader (List Char)
  | 0 => ahead
  | n + 1 => do
    let rest ← ahead
    let s ← get
    if s.aliases.isEmpty then return rest
    else
      match aliasAt? lookForKeywords s with
      | none => return rest
      | some a =>
        replaceBy a
        replaceAliases lookForKeywords n

/-- Passes over blanks and a comment, and shows what follows as the start of a command. -/
def aheadCommand : Reader (List Char) := do
  let s ← get
  replaceAliases true (s.left + s.aliases.length + 1)

/-- Passes over line breaks and what stands for nothing, at most as many times as the number says,
and shows what follows as the start of a command. -/
def skipToCommand : Nat → Reader (List Char)
  | 0 => aheadCommand
  | n + 1 => do
    match ← aheadCommand with
    | '\n' :: _ => skip 1; skipToCommand n
    | rest => return rest

def nextCommand : Reader (List Char) := do
  skipToCommand (← get).left

/-- Passes over blanks and a comment, and shows what follows as the first word of a command, where
no keyword is looked for any more. -/
def aheadFirst : Reader (List Char) := do
  let s ← get
  replaceAliases false (s.left + s.aliases.length + 1)

/-- Passes over blanks and a comment, and shows what follows as an argument of a command. -/
def aheadArgument : Reader (List Char) := do
  let rest ← ahead
  if !(← get).layers.isEmpty && (← afterBlank) then
    let s ← get
    replaceAliases false (s.left + s.aliases.length + 1)
  else return rest

/-! ### Documents -/

def isJoined (line : List Char) : Bool :=
  (line.reverse.takeWhile (· = '\\')).length % 2 = 1

structure DocumentStyle where
  /-- The line that ends it. -/
  delimiter : List Char
  /-- Tabs at the starts of lines are dropped. -/
  dropTabs : Bool
  /-- It is taken as it is; no lines are joined. -/
  isPlain : Bool

/-- The lines of a document up to the one that ends it, the rest of the text, and how many lines
that is; what stands before the end of the text is no line. A line that the one before it is joined
to is part of that one. -/
def documentLines (style : DocumentStyle) (joined : Bool) (cs : List Char) :
    Nat → List Char × List Char × Nat
  | 0 => ([], cs, 0)
  | n + 1 =>
    let written := cs.takeWhile (· ≠ '\n')
    let line := if style.dropTabs && !joined then written.dropWhile (· = '\t') else written
    let isEnd := !joined && line = style.delimiter
    match cs.drop written.length with
    | [] => if isEnd then ([], [], 1) else (line, [], 0)
    | _ :: rest =>
      if isEnd then ([], rest, 1)
      else
        let joined := !style.isPlain && isJoined line
        let (body, after, count) := documentLines style joined rest n
        (line ++ '\n' :: body, after, count + 1)

def takeDocument (style : DocumentStyle) : Reader (List Char) := do
  let s ← get
  let here := s.rest.takeWhile (· ≠ '\n')
  match s.rest.drop here.length with
  | [] => return []
  | _ :: below =>
    let (body, after, count) := documentLines style false below (below.length + 1)
    let taken := below.length - after.length
    let layers := s.layers.map fun layer => { layer with below := layer.below - taken }
    set { s with
      rest := here ++ '\n' :: after, left := s.left - taken, owed := s.owed + count, layers }
    return body

structure Delimiter where
  word : List Char := []
  /-- Whether any of it is quoted. -/
  isQuoted : Bool := false
  /-- How many characters it is written with. -/
  length : Nat := 0

def Delimiter.quoting (d : Delimiter) (cs : List Char) (length : Nat) : Delimiter :=
  ⟨cs ++ d.word, true, d.length + length⟩

/-- The word that names the end of a document, unless the text ends in a quotation. What is open is
the quotation mark before the characters. -/
def delimiterAt (isOpen : Option Char) : List Char → Option Delimiter
  | [] => if isOpen.isSome then none else some {}
  | ['\\'] => if isOpen.isSome then none else some ⟨['\\'], false, 1⟩
  | '\\' :: c :: r =>
    let taken := match isOpen with
      | none => some [c]
      | some '"' => if ['$', '`', '"', '\\'].contains c then some [c] else some ['\\', c]
      | some _ => none
    match taken with
    | some cs => (delimiterAt isOpen r).map (·.quoting cs 2)
    | none => (delimiterAt isOpen (c :: r)).map (·.quoting ['\\'] 1)
  | c :: r =>
    if some c = isOpen then (delimiterAt none r).map (·.quoting [] 1)
    else if isOpen.isNone && (c = '\'' || c = '"') then
      (delimiterAt (some c) r).map (·.quoting [] 1)
    else if isOpen.isNone && isDelimiter c then some {}
    else
      (delimiterAt isOpen r).map fun d =>
        { d with word := c :: d.word, length := d.length + 1 }

/-- Reads another text with a reader, as if it stood on a line of this one, and goes on here. The
aliases whose text is being read are none in there either. -/
def within (text : List Char) (line : Nat) (read : Reader α) : Reader α := do
  let after ← get
  let active := after.layers.filter fun layer => layer.below < after.left
  let layers := active.map fun layer => { layer with below := 0, endsInBlank := false }
  set { after with rest := text, left := text.length, line, owed := 0, layers }
  let a ← read
  set after
  return a

end Reader

end SnippetLens.Shell
