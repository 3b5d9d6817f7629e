import SnippetLens.Text.Match
import SnippetLens.Text.Search

/-!
The lines that a bytecode dump (`dexdump -d`) is made of, and what each of them says.

A field such as `      name          : 'bar'` is looked for anywhere in the line, and its value
runs to the last place where the closing quote can stand, so a value may hold quotes itself.
The other lines are recognised from their first character on.
-/

namespace SnippetLens.Bytecode

open Text

/-- The value of a field at the front of the characters: the keyword, a colon with blanks
around it, the opening mark, and the longest value before the closing mark. -/
def fieldHere? (keyword opening closing : List Char) (cs : List Char) : Option (List Char) := do
  let afterKeyword ← after? keyword cs
  let afterColon ← after? [':'] (dropBlanks afterKeyword)
  let value ← after? opening (dropBlanks afterColon)
  longestBefore1 closing value

/-- The value of the first field in the line that has the keyword and the marks. -/
def field? (keyword opening closing : String) (line : String) : Option (List Char) :=
  leftmost (fieldHere? keyword.toList opening.toList closing.toList) line.toList

/-- The class in `  Class descriptor  : 'Lcom/example/Bar;'`, its packages parted by slashes. -/
def classDescriptor? (line : String) : Option (List Char) :=
  field? "Class descriptor" "'L" ";'" line

/-- The name in `      name          : 'bar'`. -/
def methodName? (line : String) : Option String :=
  (field? "name" "'" "'" line).map String.ofList

/-- The type in `      type          : '()V'`. -/
def methodType? (line : String) : Option String :=
  (field? "type" "'" "'" line).map String.ofList

/-- Whether the line opens a method: blanks and then a number sign, as in
`    #0              : (in Lcom/example/Bar;)`. -/
def isMethodStart (line : String) : Bool :=
  (afterBlanks1 (fun cs => after? ['#'] cs) line.toList).isSome

/-- The decoded instruction `0000: return-void` in
`000154: 0e00                                   |0000: return-void`. -/
def instruction? (line : String) : Option String := do
  let (_, afterOffset) ← run? isHexDigit line.toList
  let words ← after? [':'] afterOffset
  let (_, afterWords) ← run? (· != '|') words
  let decoded ← after? ['|'] afterWords
  let (address, afterAddress) ← run? isHexDigit decoded
  let text ← restOfLine1 (← after? ": ".toList afterAddress)
  return String.ofList (address ++ ": ".toList ++ text)

/-- Whether the line is indented by four blanks or more and goes on after them, as the
properties of a method, its catches and its positions are. -/
def isIndented (line : String) : Bool :=
  4 ≤ (line.toList.takeWhile isBlank).length && !(dropBlanks line.toList).isEmpty

/-- Whether the line is the header of a method's code, as in
`000144:                                        |[000144] Bar.bar:()V`. -/
def isCodeHeader (line : String) : Bool :=
  match run? isHexDigit line.toList with
  | some (_, rest) =>
    match after? [':'] rest with
    | some rest => "|[".toList.isPrefixOf (dropBlanks rest)
    | none => false
  | none => false

inductive BodyLine where
  /-- A decoded instruction. -/
  | instruction (text : String)
  /-- A property, a catch, a position or a code header, which says nothing. -/
  | metadata
  /-- Anything else; the body ends before it. -/
  | boundary
  deriving DecidableEq, Repr

/-- What a line is inside the body of a method. An instruction is told first, and the start of
the next method is told before metadata, which it resembles. -/
def BodyLine.ofLine (line : String) : BodyLine :=
  match instruction? line with
  | some text => .instruction text
  | none =>
    if isMethodStart line then .boundary
    else if isIndented line || isCodeHeader line then .metadata
    else .boundary

def isClassStart (line : String) : Bool :=
  startsWith "Class #" line

def headsDirectMethods (line : String) : Bool :=
  contains "Direct methods" line

def headsVirtualMethods (line : String) : Bool :=
  contains "Virtual methods" line

end SnippetLens.Bytecode
