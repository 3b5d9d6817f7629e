import SnippetLens.Config.Toml.Reader
import SnippetLens.Config.Toml.Value
import SnippetLens.Text.Digit

/-!
The parts of a TOML document that hold no other values: blanks and comments, keys, texts,
numbers, and dates and times.
-/

namespace SnippetLens.Config.Toml

open Reader

/-- The deepest that values may be nested, and the greatest number of keys in a path, stay below
this number. -/
def depthLimit : Nat := 80

/-! ### Blanks -/

def isSpace (c : Char) : Bool :=
  c = ' ' || c = '\t'

def isCommentChar (c : Char) : Bool :=
  c = '\t' || (' ' ≤ c && c ≤ '~') || 0x80 ≤ c.toNat

def spaces : Reader Unit := do
  let _ ← run isSpace

/-- The end of a line that another one follows. -/
def newline : Reader Unit :=
  exactly "\n" <|> exactly "\r\n"

def comment : Reader Unit := do
  exactly "#"
  let _ ← run isCommentChar

def lineEnd : Reader Unit :=
  newline <|> atEnd

def lineTrailing : Reader Unit := do
  spaces
  let _ ← maybe comment
  lineEnd

/-- Spaces, line breaks and comments, as they may stand between the values of an array. -/
def blanks : Reader Unit := do
  let _ ← many ((do let _ ← one isSpace) <|> newline <|> comment)

/-! ### Texts -/

def isBasicChar (c : Char) : Bool :=
  isCommentChar c && c ≠ '"' && c ≠ '\\'

def isLiteralChar (c : Char) : Bool :=
  isCommentChar c && c ≠ '\''

def hexValue (c : Char) : Nat :=
  if c ≤ '9' then c.toNat - '0'.toNat
  else if c ≤ 'F' then c.toNat - 'A'.toNat + 10
  else c.toNat - 'a'.toNat + 10

def digitsValue (base : Nat) (digits : List Char) : Nat :=
  digits.foldl (fun n c => base * n + hexValue c) 0

/-- A character given by its number, which must be the number of one. -/
def numbered (length : Nat) : Reader Char := do
  let n := digitsValue 16 (← count Text.isHexDigit length)
  if n.isValidChar then return Char.ofNat n else failure

def escape : Reader Char := do
  exactly "\\"
  match ← one fun _ => true with
  | 'b' => return '\x08'
  | 't' => return '\t'
  | 'n' => return '\n'
  | 'f' => return '\x0c'
  | 'r' => return '\r'
  | '"' => return '"'
  | '\\' => return '\\'
  | 'u' => numbered 4
  | 'U' => numbered 8
  | _ => failure

def basicText : Reader (List Char) := do
  exactly "\""
  let cs ← many (one isBasicChar <|> escape)
  exactly "\""
  return cs

def literalText : Reader (List Char) := do
  exactly "'"
  let cs ← run isLiteralChar
  exactly "'"
  return cs

/-- A backslash at the end of a line, with the blanks around the line break. -/
def joinedLine : Reader (List Char) := do
  exactly "\\"
  spaces
  newline
  let _ ← many ((do let _ ← one isSpace) <|> newline)
  return []

/-- A line break in a text, as it is kept. -/
def lineBreak : Reader (List Char) := do
  newline
  return ['\n']

/-- The quotes that end a text of several lines: three, and before them one or two that belong to
the text. -/
def closingQuotes (quote : Char) : Reader (List Char) := do
  let three := String.ofList [quote, quote, quote]
  let before ←
    (do exactly (String.ofList [quote, quote] ++ three); pure [quote, quote]) <|>
      (do exactly (String.ofList [quote] ++ three); pure [quote]) <|>
      (do exactly three; pure [])
  return before

def innerQuotes (quote : Char) : Reader (List Char) := fun s =>
  match s.takeWhile (· = quote), s.dropWhile (· = quote) with
  | [a], c :: r => some ([a], c :: r)
  | [a, b], c :: r => some ([a, b], c :: r)
  | _, _ => none

/-- A text of several lines between three quotes each. A line break right at its start is
dropped. -/
def multilineText (quote : Char) (content : Reader (List Char)) : Reader (List Char) := do
  exactly (String.ofList [quote, quote, quote])
  let _ ← maybe newline
  let parts ← many (content <|> innerQuotes quote)
  let last ← closingQuotes quote
  return parts.flatten ++ last

/-- A text of several lines between three quotes, with escapes. -/
def multilineBasicText : Reader (List Char) :=
  multilineText '"'
    ((do return [← one isBasicChar]) <|> joinedLine <|> (do return [← escape]) <|> lineBreak)

def multilineLiteralText : Reader (List Char) :=
  multilineText '\'' ((do return [← one isLiteralChar]) <|> lineBreak)

def text : Reader (List Char) :=
  multilineBasicText <|> basicText <|> multilineLiteralText <|> literalText

/-! ### Keys -/

def isBareChar (c : Char) : Bool :=
  c.isAlphanum || c = '-' || c = '_'

def bareKey : Reader (List Char) := do
  let cs ← run isBareChar
  if cs.isEmpty then failure else return cs

def keys : Reader (List String) := do
  let path ← separated1
    (do
      spaces
      let key ← basicText <|> literalText <|> bareKey
      spaces
      return String.ofList key)
    (exactly ".")
  if path.length < depthLimit then return path else failure

/-! ### Numbers -/

/-- Digits, between two of which an underscore may stand. -/
def digitRun (isDigit : Char → Bool) : Reader (List Char) := do
  let first ← one isDigit
  let rest ← many (one isDigit <|> (do exactly "_"; one isDigit))
  return first :: rest

def isDecimalDigit (c : Char) : Bool :=
  '0' ≤ c && c ≤ '9'

def sign : Reader (Option Char) :=
  maybe (one fun c => c = '+' || c = '-')

def plainDigits : Reader (List Char) := do
  match ← peek with
  | some '0' => return [← one isDecimalDigit]
  | _ => digitRun isDecimalDigit

/-- An integer, which must fit into 64 bits with its sign. -/
def integerIn (n : Int) : Reader Value :=
  if Int64.minValue.toInt ≤ n && n ≤ Int64.maxValue.toInt then return .integer n else failure

def based (lead : String) (base : Nat) (isDigit : Char → Bool) : Reader Value := do
  exactly lead
  integerIn (digitsValue base (← digitRun isDigit))

def decimalInteger : Reader Value := do
  let negative := (← sign) = some '-'
  let n : Int := digitsValue 10 (← plainDigits)
  integerIn (if negative then -n else n)

def integer : Reader Value :=
  based "0x" 16 Text.isHexDigit <|>
    based "0o" 8 (fun c => '0' ≤ c && c ≤ '7') <|>
    based "0b" 2 (fun c => c = '0' || c = '1') <|>
    decimalInteger

def exponent : Reader Int := do
  let _ ← one fun c => c = 'e' || c = 'E'
  let negative := (← sign) = some '-'
  let n : Int := digitsValue 10 (← digitRun isDecimalDigit)
  return if negative then -n else n

/-- A float with a point or an exponent. One above the range of the format is refused; one below
it is infinite. -/
def decimalFloat : Reader Value := do
  let negative := (← sign) = some '-'
  let whole ← plainDigits
  let places ← maybe (do exactly "."; digitRun isDecimalDigit)
  let exponent ← if places.isSome then maybe exponent else (do return some (← exponent))
  let places := places.getD []
  let x := Decimal.Binary64.ofDecimal negative (digitsValue 10 (whole ++ places))
    (exponent.getD 0 - (places.length : Int))
  if x = .infinite false then failure else return .float x

def namedFloat : Reader Value := do
  let negative := (← sign) = some '-'
  (do exactly "inf"; return .float (.infinite negative)) <|> (do exactly "nan"; return .float .nan)

/-! ### Dates and times -/

def twoDigits (low high : Nat) : Reader Nat := do
  let n := digitsValue 10 (← count isDecimalDigit 2)
  if low ≤ n && n ≤ high then return n else failure

def daysIn (year month : Nat) : Nat :=
  if month = 2 then
    if (year % 4 = 0 && year % 100 ≠ 0) || year % 400 = 0 then 29 else 28
  else if month = 4 || month = 6 || month = 9 || month = 11 then 30
  else 31

def date : Reader Unit := do
  let year := digitsValue 10 (← count isDecimalDigit 4)
  exactly "-"
  let month ← twoDigits 1 12
  exactly "-"
  let _ ← twoDigits 1 (daysIn year month)

/-- A time of day; a leap second may be sixty. -/
def time : Reader Unit := do
  let _ ← twoDigits 0 23
  exactly ":"
  let _ ← twoDigits 0 59
  exactly ":"
  let _ ← twoDigits 0 60
  let _ ← maybe (do exactly "."; let _ ← count isDecimalDigit 1; run isDecimalDigit)

def offset : Reader Unit :=
  (do let _ ← one fun c => c = 'Z' || c = 'z') <|>
    (do
      let _ ← one fun c => c = '+' || c = '-'
      let _ ← twoDigits 0 23
      exactly ":"
      let _ ← twoDigits 0 59)

/-- A date, a time, or both, with an offset only where both stand. -/
def moment : Reader Value := do
  (do
      date
      let _ ← maybe (do
        let _ ← one fun c => c = 'T' || c = 't' || c = ' '
        time
        let _ ← maybe offset)) <|> time
  return .moment

/-! ### Scalars -/

def scalar : Reader Value := do
  match ← peek with
  | some '"' | some '\'' => return .text (String.ofList (← text))
  | some 't' => do exactly "true"; return .boolean true
  | some 'f' => do exactly "false"; return .boolean false
  | _ => moment <|> decimalFloat <|> namedFloat <|> integer

end SnippetLens.Config.Toml
