/-!
Numbers in texts: the digits at the start of a text, with blanks before them and perhaps a sign,
and words that are numbers as a whole.
-/

namespace SnippetLens.Shell

def digit? (base : Nat) (c : Char) : Option Nat :=
  let value :=
    if c.isDigit then some (c.toNat - '0'.toNat)
    else if 'a' ≤ c ∧ c ≤ 'f' then some (c.toNat - 'a'.toNat + 10)
    else if 'A' ≤ c ∧ c ≤ 'F' then some (c.toNat - 'A'.toNat + 10)
    else none
  value.filter (· < base)

def digitsAt (base value : Nat) : List Char → Nat × List Char
  | [] => (value, [])
  | c :: r =>
    match digit? base c with
    | some d => digitsAt base (value * base + d) r
    | none => (value, c :: r)

/-- The number at the start of the characters, whose first digits may tell its base. -/
def basedAt : List Char → Nat × List Char
  | '0' :: x :: d :: r =>
    if (x = 'x' ∨ x = 'X') ∧ (digit? 16 d).isSome then digitsAt 16 0 (d :: r)
    else digitsAt 8 0 (x :: d :: r)
  | '0' :: r => digitsAt 8 0 r
  | cs => digitsAt 10 0 cs

def isSpace (c : Char) : Bool :=
  c = ' ' || ('\t' ≤ c && c ≤ '\r')

/-- A number with blanks before it and perhaps a sign, and what follows it. Without a digit there
is none. -/
def integerAt (based : Bool) (cs : List Char) : Option (Int × List Char) :=
  let cs := cs.dropWhile isSpace
  let (negative, body) := match cs with
    | '-' :: r => (true, r)
    | '+' :: r => (false, r)
    | r => (false, r)
  if body.head?.any Char.isDigit then
    let (n, rest) := if based then basedAt body else digitsAt 10 0 body
    some (if negative then -n else n, rest)
  else none

def fits (n : Int) : Bool :=
  Int64.minValue.toInt ≤ n && n ≤ Int64.maxValue.toInt

def clamp (n : Int) : Int64 :=
  if n < Int64.minValue.toInt then .minValue
  else if Int64.maxValue.toInt < n then .maxValue
  else .ofInt n

def word? (based : Bool) (cs : List Char) : Option Int64 :=
  match integerAt based cs with
  | some (n, rest) => if rest.all isSpace && fits n then some (.ofInt n) else none
  | none => none

def maxCount : Nat := 2147483647

def count? (cs : List Char) : Option Nat :=
  match word? false cs with
  | some n => if n < 0 || maxCount < n.toNatClampNeg then none else some n.toNatClampNeg
  | none => none

def decimal (n : Nat) : List Char :=
  (toString n).toList

end SnippetLens.Shell
