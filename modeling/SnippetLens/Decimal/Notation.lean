import SnippetLens.Decimal.Binary64

/-!
Notations of fractions with a given number of places: with a point at a fixed place, with a power
of ten or of two after the digits, and the shorter of the first two. A place that is not written
rounds the last one that is, to an even digit where both neighbours are equally near.
-/

namespace SnippetLens.Decimal

/-- Digits, last ones behind a point; the point is left out if nothing follows it, unless it is to
be shown. -/
def withPoint (digits : List Char) (places : Nat) (showsPoint : Bool) : List Char :=
  let padded := List.replicate (places + 1 - digits.length) '0' ++ digits
  let whole := padded.take (padded.length - places)
  if places = 0 then (if showsPoint then whole ++ ['.'] else whole)
  else whole ++ '.' :: padded.drop whole.length

/-- A decimal without the zeros that end it behind its point, and without a point that ends it. -/
def withoutZeros (text : List Char) : List Char :=
  if text.contains '.' then
    match text.reverse.dropWhile (· = '0') with
    | '.' :: r => r.reverse
    | r => r.reverse
  else text

def exponentText (least : Nat) (exponent : Int) : List Char :=
  let digits := Nat.toDigits 10 exponent.natAbs
  (if exponent < 0 then '-' else '+') :: List.replicate (least - digits.length) '0' ++ digits

namespace Fraction

def fixed (f : Fraction) (places : Nat) (showsPoint : Bool) : List Char :=
  withPoint (Nat.toDigits 10 (f.inUnits 10 (-places : Int)).nearest) places showsPoint

/-- The digits of a fraction, one before the point and so many behind it, and the power of ten of
the first one. -/
def leading (f : Fraction) (places : Nat) : Nat × Int :=
  if f.num = 0 then (0, 0)
  else
    let exponent := Binary64.decimalExponent f 400
    let digits := (f.inUnits 10 (exponent - places)).nearest
    if digits = Nat.pow 10 (places + 1) then (Nat.pow 10 places, exponent + 1)
    else (digits, exponent)

def scientific (f : Fraction) (places : Nat) (showsPoint : Bool) : List Char :=
  let (digits, exponent) := f.leading places
  withPoint (Nat.toDigits 10 digits) places showsPoint ++ 'e' :: exponentText 2 exponent

/-- The notation with so many digits in all, and with a power of ten only for large and for very
small fractions. Zeros at the end are left out unless the point is to be shown. -/
def general (f : Fraction) (digits : Nat) (showsPoint : Bool) : List Char :=
  let digits := max digits 1
  let (first, exponent) := f.leading (digits - 1)
  let shorten := fun (text : List Char) => if showsPoint then text else withoutZeros text
  if -4 ≤ exponent && exponent < digits then
    shorten (f.fixed (((digits : Int) - 1 - exponent).toNat) showsPoint)
  else
    shorten (withPoint (Nat.toDigits 10 first) (digits - 1) showsPoint) ++
      'e' :: exponentText 2 exponent

end Fraction

/-- The notation of `mantissa * 2 ^ exponent` in digits of the base sixteen with a power of two.
Without a number of places all digits are written. -/
def hexadecimal (mantissa : Nat) (exponent : Int) (places : Option Nat) (showsPoint : Bool) :
    List Char :=
  let full := 4 * 13
  let shift := Binary64.precision - 1 - Nat.log2 mantissa
  let isSmall := exponent - (shift : Int) < Binary64.minExponent
  let (mantissa, exponent) :=
    if mantissa = 0 then (0, -(full : Int))
    else if isSmall then
      (mantissa * Nat.pow 2 (exponent - Binary64.minExponent).toNat, Binary64.minExponent)
    else (mantissa * Nat.pow 2 shift, exponent - shift)
  let power := exponent + full
  let digits := match places with
    | some n =>
      if n < 13 then
        let kept := (Fraction.mk mantissa (Nat.pow 16 (13 - n))).nearest
        withPoint (Nat.toDigits 16 kept) n showsPoint
      else withPoint (Nat.toDigits 16 (mantissa * Nat.pow 16 (n - 13))) n showsPoint
    | none =>
      let text := withoutZeros (withPoint (Nat.toDigits 16 mantissa) 13 false)
      if showsPoint && !text.contains '.' then text ++ ['.'] else text
  '0' :: 'x' :: digits ++ 'p' :: exponentText 1 power

end SnippetLens.Decimal
