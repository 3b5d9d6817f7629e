import SnippetLens.Decimal.Binary64

/-!
Reading numbers at the start of a text: decimals and hexadecimal numbers with a point and an
exponent, and the names of what is no finite number.
-/

namespace SnippetLens.Decimal

structure Numeral where
  negative : Bool
  /-- The number without its sign. -/
  magnitude : Binary64
  /-- Whether the number is too large for the format, or so small that digits are lost. -/
  outOfRange : Bool
  rest : List Char

def digitValue? (base : Nat) (c : Char) : Option Nat :=
  let lower := c.toLower
  let value :=
    if lower.isDigit then some (lower.toNat - '0'.toNat)
    else if 'a' ≤ lower ∧ lower ≤ 'f' then some (lower.toNat - 'a'.toNat + 10)
    else none
  value.filter (· < base)

def digitsOf (base : Nat) (cs : List Char) : List Char :=
  cs.takeWhile fun c => (digitValue? base c).isSome

def valueOf (base : Nat) (digits : List Char) : Nat :=
  digits.foldl (fun n c => n * base + (digitValue? base c).getD 0) 0

/-- The exponent after a mark, if digits follow the mark, and what follows it. -/
def exponentAt (mark : Char) (cs : List Char) : Int × List Char :=
  match cs with
  | c :: r =>
    if c.toLower ≠ mark then (0, cs)
    else
      let (negative, body) := match r with
        | '-' :: r => (true, r)
        | '+' :: r => (false, r)
        | r => (false, r)
      let digits := digitsOf 10 body
      if digits.isEmpty then (0, cs)
      else
        let value : Int := valueOf 10 digits
        (if negative then -value else value, body.drop digits.length)
  | [] => (0, [])

/-- The digits before and behind a point, how many are behind it, and what follows them. Without a
digit there are none. -/
def pointedAt (base : Nat) (cs : List Char) : Option (List Char × Nat × List Char) :=
  let whole := digitsOf base cs
  let (behind, rest) := match cs.drop whole.length with
    | '.' :: r =>
      let behind := digitsOf base r
      if whole.isEmpty && behind.isEmpty then ([], '.' :: r) else (behind, r.drop behind.length)
    | r => ([], r)
  if whole.isEmpty && behind.isEmpty then none else some (whole ++ behind, behind.length, rest)

def isLossy (f : Fraction) : Binary64 → Bool
  | .finite _ mantissa exponent =>
    let nearest := Fraction.scaled mantissa 2 exponent
    mantissa < Binary64.leastFull && (f.below nearest || nearest.below f)
  | .infinite _ => true
  | .nan => false

/-- The number nearest to digits with an exponent, and whether it is out of range. Where it is far
out of range the power is not computed. -/
def nearestTo (base power : Nat) (digits : List Char) (exponent : Int) : Binary64 × Bool :=
  let value := valueOf base digits
  let bits := (Nat.log2 value : Int)
  let magnitude := if power = 10 then (bits / 4) + exponent else bits + exponent
  if value = 0 then (.finite false 0 0, false)
  else if magnitude < -2000 then (.finite false 0 0, true)
  else if 2000 < magnitude then (.infinite false, true)
  else
    let f := Fraction.scaled value power exponent
    let x := Binary64.ofFraction false f
    (x, isLossy f x)

/-- A number without its sign at the start of a text, whether it is out of range, and what follows
it. -/
def magnitudeAt (cs : List Char) : Option (Binary64 × Bool × List Char) :=
  let lower := cs.map Char.toLower
  let decimal := fun (_ : Unit) => do
    let (digits, places, rest) ← pointedAt 10 cs
    let (exponent, rest) := exponentAt 'e' rest
    let (x, outOfRange) := nearestTo 10 10 digits (exponent - places)
    return (x, outOfRange, rest)
  if "infinity".toList.isPrefixOf lower then some (.infinite false, false, cs.drop 8)
  else if "inf".toList.isPrefixOf lower then some (.infinite false, false, cs.drop 3)
  else if "nan".toList.isPrefixOf lower then
    let rest := cs.drop 3
    match rest with
    | '(' :: r =>
      let inside := r.takeWhile fun c => c.isAlphanum || c = '_'
      match r.drop inside.length with
      | ')' :: after => some (.nan, false, after)
      | _ => some (.nan, false, rest)
    | rest => some (.nan, false, rest)
  else if "0x".toList.isPrefixOf lower then
    match pointedAt 16 (cs.drop 2) with
    | none => decimal ()
    | some (digits, places, rest) =>
      let (exponent, rest) := exponentAt 'p' rest
      let (x, outOfRange) := nearestTo 16 2 digits (exponent - 4 * places)
      some (x, outOfRange, rest)
  else decimal ()

/-- The number at the start of a text, blanks before it passed over. -/
def numeralAt (cs : List Char) : Option Numeral := do
  let cs := cs.dropWhile fun c => c = ' ' || ('\t' ≤ c && c ≤ '\r')
  let (negative, body) := match cs with
    | '-' :: r => (true, r)
    | '+' :: r => (false, r)
    | r => (false, r)
  let (magnitude, outOfRange, rest) ← magnitudeAt body
  return { negative, magnitude, outOfRange, rest }

end SnippetLens.Decimal
