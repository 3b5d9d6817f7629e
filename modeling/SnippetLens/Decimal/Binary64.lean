/-!
Numbers of the format binary64, read from decimals and written as decimals.

A finite number is a natural number times a power of two. Reading takes the nearest such number,
and an even one of two that are equally near. Writing takes the fewest digits that read back,
and of two texts with as many digits the nearer one. Both are computed with exact fractions.
-/

namespace SnippetLens.Decimal

/-- A number of the format binary64. A finite one is `mantissa * 2 ^ exponent`. -/
inductive Binary64 where
  | nan
  | infinite (negative : Bool)
  | finite (negative : Bool) (mantissa : Nat) (exponent : Int)
  deriving DecidableEq, Repr

structure Fraction where
  num : Nat
  den : Nat

namespace Fraction

def scaled (n base : Nat) (exponent : Int) : Fraction :=
  if 0 ≤ exponent then ⟨n * base.pow exponent.toNat, 1⟩ else ⟨n, base.pow (-exponent).toNat⟩

def inUnits (f : Fraction) (base : Nat) (exponent : Int) : Fraction :=
  if 0 ≤ exponent then ⟨f.num, f.den * base.pow exponent.toNat⟩
  else ⟨f.num * base.pow (-exponent).toNat, f.den⟩

def below (a b : Fraction) : Bool :=
  a.num * b.den < b.num * a.den

/-- The nearest natural number, an even one of two that are equally near. -/
def nearest (f : Fraction) : Nat :=
  let q := f.num / f.den
  let twice := 2 * (f.num % f.den)
  if f.den < twice || (twice = f.den && q % 2 = 1) then q + 1 else q

end Fraction

namespace Binary64

def precision : Nat := 53

def leastFull : Nat := Nat.pow 2 (precision - 1)

def minExponent : Int := -1074

def endExponent : Int := 972

/-- The power of two at or below a fraction that is not zero. -/
def binaryExponent (f : Fraction) : Int :=
  let guess : Int := (Nat.log2 f.num : Int) - Nat.log2 f.den
  if f.below (.scaled 1 2 guess) then guess - 1 else guess

/-- The number nearest to a fraction that is not zero. -/
def ofFraction (negative : Bool) (f : Fraction) : Binary64 :=
  let exponent := max (binaryExponent f - (precision - 1 : Nat)) minExponent
  let mantissa := (f.inUnits 2 exponent).nearest
  let (mantissa, exponent) :=
    if mantissa = 2 * leastFull then (leastFull, exponent + 1) else (mantissa, exponent)
  if endExponent ≤ exponent then .infinite negative else .finite negative mantissa exponent

/-- The number nearest to `digits * 10 ^ exponent`. Where the decimal is far beyond the range of
the format, its power of ten is not computed. -/
def ofDecimal (negative : Bool) (digits : Nat) (exponent : Int) : Binary64 :=
  let magnitude := ((Nat.toDigits 10 digits).length : Int) + exponent
  if digits = 0 || magnitude < -400 then .finite negative 0 0
  else if 400 < magnitude then .infinite negative
  else ofFraction negative (.scaled digits 10 exponent)

/-- The power of ten at or below a fraction that is not zero, looked for among the given number
of places behind the point. -/
def decimalExponent (f : Fraction) : Nat → Int
  | 0 => 0
  | places + 1 =>
    if f.num < f.den then decimalExponent ⟨10 * f.num, f.den⟩ places - 1
    else ((Nat.toDigits 10 (f.num / f.den)).length : Int) - 1

/-- What is nearer to `f` than to any other number of the format: from `low` to `high`, with the
ends if `closed`. -/
structure Rounding where
  low : Fraction
  high : Fraction
  closed : Bool

/-- The fractions that read back as `mantissa * 2 ^ exponent`. The gap below a power of two is
half as wide as the one above. -/
def rounding (mantissa : Nat) (exponent : Int) : Rounding where
  low :=
    if mantissa = leastFull && minExponent < exponent then
      .scaled (4 * mantissa - 1) 2 (exponent - 2)
    else .scaled (2 * mantissa - 1) 2 (exponent - 1)
  high := .scaled (2 * mantissa + 1) 2 (exponent - 1)
  closed := mantissa % 2 = 0

def Rounding.holds (r : Rounding) (f : Fraction) : Bool :=
  if r.closed then !f.below r.low && !r.high.below f else r.low.below f && f.below r.high

/-- The nearest number with the given power of ten as its last place that reads back. -/
def digitsAt (f : Fraction) (r : Rounding) (last : Int) : Option Nat :=
  let scaled := f.inUnits 10 last
  let down := scaled.num / scaled.den
  let up := down + 1
  let downHolds := r.holds (.scaled down 10 last)
  let upHolds := r.holds (.scaled up 10 last)
  if downHolds && upHolds then some scaled.nearest
  else if downHolds then some down
  else if upHolds then some up
  else none

def shortestFrom (f : Fraction) (r : Rounding) (top : Int) (count : Nat) : Nat → Nat × Int
  | 0 => (f.nearest, 0)
  | more + 1 =>
    let last := top - (count : Int) + 1
    match digitsAt f r last with
    | some digits => (digits, last)
    | none => shortestFrom f r top (count + 1) more

def dropZeros (digits : Nat) (last : Int) : Nat → Nat × Int
  | 0 => (digits, last)
  | more + 1 =>
    if digits ≠ 0 && digits % 10 = 0 then dropZeros (digits / 10) (last + 1) more
    else (digits, last)

/-- The fewest digits that read back as a finite number, with the power of ten of the last one.
Seventeen always suffice. -/
def shortest (mantissa : Nat) (exponent : Int) : Nat × Int :=
  let f := Fraction.scaled mantissa 2 exponent
  let (digits, last) := shortestFrom f (rounding mantissa exponent) (decimalExponent f 400) 1 18
  dropZeros digits last 18

def positional (digits : Nat) (last : Int) : String :=
  let cs := Nat.toDigits 10 digits
  if 0 ≤ last then String.ofList (cs ++ List.replicate last.toNat '0') ++ ".0"
  else
    let places := (-last).toNat
    let padded := List.replicate (places + 1 - cs.length) '0' ++ cs
    let whole := padded.take (padded.length - places)
    String.ofList whole ++ "." ++ String.ofList (padded.drop whole.length)

def text : Binary64 → String
  | .nan => "NaN"
  | .infinite negative => (if negative then "-" else "") ++ "inf"
  | .finite negative mantissa exponent =>
    (if negative then "-" else "") ++
      if mantissa = 0 then "0.0"
      else
        let (digits, last) := shortest mantissa exponent
        positional digits last

end Binary64

end SnippetLens.Decimal
