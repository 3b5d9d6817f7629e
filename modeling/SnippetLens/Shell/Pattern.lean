/-!
Patterns of the shell: a star is any text, a question mark any character, and brackets are a choice
of characters. A quoted character is only itself, and so is one after a backslash.
-/

namespace SnippetLens.Shell

/-- What a choice in brackets offers: the characters from one to another, or those of a class. -/
inductive Item where
  | range (low high : Char)
  | named (name : String)
  deriving DecidableEq, Repr

inductive Sign where
  | only (c : Char)
  | anyOne
  | anyText
  /-- A character that one of the items has, or that none has. -/
  | oneOf (outside : Bool) (items : List Item)
  deriving DecidableEq, Repr

structure Marked where
  char : Char
  active : Bool
  deriving DecidableEq, Repr

namespace Item

def classes : List (String × (Char → Bool)) :=
  let isPrint := fun (c : Char) => ' ' ≤ c && c ≤ '~'
  let isBlank := fun (c : Char) => c = ' ' || c = '\t'
  [("alnum", Char.isAlphanum), ("cntrl", fun c => c < ' ' || c = '\x7f'),
    ("lower", Char.isLower), ("space", fun c => c = ' ' || ('\t' ≤ c && c ≤ '\r')),
    ("alpha", Char.isAlpha), ("digit", Char.isDigit), ("print", isPrint),
    ("upper", Char.isUpper), ("blank", isBlank), ("graph", fun c => isPrint c && c ≠ ' '),
    ("punct", fun c => isPrint c && c ≠ ' ' && !c.isAlphanum),
    ("xdigit", fun c => c.isDigit || ('a' ≤ c && c ≤ 'f') || ('A' ≤ c && c ≤ 'F'))]

/-- The place of a byte in the order of characters: bytes that are no ASCII come first. -/
def order (c : Char) : Int :=
  if c.toNat < 128 then c.toNat else (c.toNat : Int) - 256

def has : Item → Char → Bool
  | range low high, c => order low ≤ order c && order c ≤ order high
  | named name, c => ((classes.find? fun entry => entry.1 = name).map (·.2 c)).getD false

/-- The class that the characters after an opening bracket name, and how many characters do it. -/
def classAt? (cs : List Marked) : Option (Item × Nat) := do
  let entry ← classes.find? fun entry =>
    (":" ++ entry.1 ++ ":]").toList.isPrefixOf (cs.map (·.char))
  return (named entry.1, entry.1.length + 3)

end Item

namespace Sign

/-- The items in brackets, up to the closing one, and what follows it: at most as many items as the
number says. A closing bracket that stands first is an item itself. -/
def items (first : Bool) (cs : List Marked) : Nat → Option (List Item × List Marked)
  | 0 => none
  | n + 1 =>
    let more := fun (item : Item) (rest : List Marked) =>
      (items false rest n).map fun r => (item :: r.1, r.2)
    let startingAt := fun (c : Char) (rest : List Marked) =>
      match rest with
      | ⟨'-', true⟩ :: ⟨'\\', true⟩ :: d :: after => more (.range c d.char) after
      | ⟨'-', true⟩ :: d :: after =>
        if d = ⟨']', true⟩ then more (.range c c) rest else more (.range c d.char) after
      | rest => more (.range c c) rest
    match cs with
    | [] => none
    | ⟨']', true⟩ :: rest => if first then startingAt ']' rest else some ([], rest)
    | ⟨'[', true⟩ :: rest =>
      match Item.classAt? rest with
      | some (item, length) => more item (rest.drop length)
      | none => startingAt '[' rest
    | ⟨'\\', true⟩ :: c :: rest => startingAt c.char rest
    | c :: rest => startingAt c.char rest

def choice? (cs : List Marked) : Option (Sign × List Marked) :=
  match cs with
  | ⟨'!', true⟩ :: rest => (items true rest cs.length).map fun r => (oneOf true r.1, r.2)
  | _ => (items true cs cs.length).map fun r => (oneOf false r.1, r.2)

def signs (cs : List Marked) : Nat → List Sign
  | 0 => []
  | n + 1 =>
    match cs with
    | [] => []
    | ⟨'*', true⟩ :: rest => anyText :: signs rest n
    | ⟨'?', true⟩ :: rest => anyOne :: signs rest n
    | ⟨'[', true⟩ :: rest =>
      match choice? rest with
      | some (sign, after) => sign :: signs after n
      | none => only '[' :: signs rest n
    | ⟨'\\', true⟩ :: c :: rest => only c.char :: signs rest n
    | c :: rest => only c.char :: signs rest n

def pattern (cs : List Marked) : List Sign :=
  signs cs cs.length

def takes : Sign → Char → Bool
  | only d, c => c = d
  | anyOne, _ => true
  | anyText, _ => false
  | oneOf outside items, c => items.any (·.has c) ≠ outside

def anySuffix (test : List Char → Bool) : List Char → Bool
  | [] => test []
  | c :: r => test (c :: r) || anySuffix test r

def matchesAll : List Sign → List Char → Bool
  | [], cs => cs.isEmpty
  | anyText :: signs, cs => anySuffix (matchesAll signs) cs
  | _ :: _, [] => false
  | sign :: signs, c :: r => sign.takes c && matchesAll signs r

def isOpen (signs : List Sign) : Bool :=
  signs.any fun sign => match sign with
    | only _ => false
    | _ => true

/-- The text without its start, or without its end, that a pattern takes; the longest one or the
shortest one. A text that has none stays as it is. What is looked at ends before a zero byte, and
whoever looks from the left stops there. -/
def trim (front longest : Bool) (signs : List Sign) (cs : List Char) : List Char :=
  let isRest := (· ≠ '\x00')
  let cuts := if longest = front then (List.range (cs.length + 1)).reverse
    else List.range ((cs.takeWhile isRest).length + 1)
  let takes := fun (n : Nat) =>
    matchesAll signs ((if front then cs.take n else cs.drop n).takeWhile isRest)
  match cuts.find? takes with
  | some n => if front then cs.drop n else cs.take n
  | none => cs

end Sign

end SnippetLens.Shell
