import SnippetLens.Decimal.Notation
import SnippetLens.Decimal.Reading
import SnippetLens.Shell.State

/-!
Formatted text: escapes after a backslash, and formats whose directives take arguments. A format is
used again as long as arguments are left and it takes some.
-/

namespace SnippetLens.Shell.Format

/-! ### Escapes -/

/-- The characters that an escape stands for, after its backslash, and what follows it. A backslash
that starts no escape stands for itself. -/
def escapeAt : List Char → List Char × List Char
  | [] => (['\\'], [])
  | c :: r =>
    match c with
    | '\\' => (['\\'], r)
    | 'a' => (['\x07'], r)
    | 'b' => (['\x08'], r)
    | 'e' => (['\x1b'], r)
    | 'f' => (['\x0c'], r)
    | 'n' => (['\n'], r)
    | 'r' => (['\r'], r)
    | 't' => (['\t'], r)
    | 'v' => (['\x0b'], r)
    | _ =>
      match ((c :: r).take 3).takeWhile fun d => (digit? 8 d).isSome with
      | [] => (['\\'], c :: r)
      | digits =>
        ([Char.ofNat ((digitsAt 8 0 digits).1 % 256)], (c :: r).drop digits.length)

/-- A text with its escapes replaced, and whether nothing more is to be written after it. At most
as many characters are read as the number says. -/
def unescape (cs : List Char) : Nat → List Char × Bool
  | 0 => ([], false)
  | n + 1 =>
    match cs with
    | [] => ([], false)
    | '\\' :: 'c' :: _ => ([], true)
    | '\\' :: r =>
      let body := match r with
        | '0' :: d :: r => if (digit? 8 d).isSome then d :: r else '0' :: d :: r
        | r => r
      let (first, rest) := escapeAt body
      let (after, stop) := unescape rest n
      (first ++ after, stop)
    | c :: r =>
      let (after, stop) := unescape r n
      (c :: after, stop)

/-! ### Directives -/

structure Layout where
  flags : List Char
  width : Nat
  leftward : Bool
  precision : Option Nat

structure Progress where
  arguments : List (List Char)
  /-- The arguments were asked for. -/
  consumed : Bool := false
  written : List Char := []
  /-- What is wrong with arguments, last one first. -/
  complaints : List String := []
  stopped : Bool := false
  /-- What is wrong with the format. -/
  refused : Option String := none

namespace Progress

def next (p : Progress) : Option (List Char) × Progress :=
  (p.arguments.head?, { p with arguments := p.arguments.tail, consumed := true })

/-- The progress with what is wrong with an argument, of which something may be left. -/
def judge (p : Progress) (argument rest : List Char) (outOfRange : Bool) : Progress :=
  let say := fun (what : String) =>
    { p with complaints := (Text.Octets.toText argument ++ ": " ++ what) :: p.complaints }
  if !rest.isEmpty then
    say (if rest.length = argument.length then "expected numeric value"
      else "not completely converted")
  else if outOfRange then say "Numerical result out of range"
  else p

def quotedNumber? : List Char → Option Nat
  | c :: r => if c = '"' || c = '\'' then some ((r.head?.map Char.toNat).getD 0) else none
  | [] => none

def nextWord (p : Progress) (isSigned : Bool) : Int × Progress :=
  match p.next with
  | (none, p) => (0, p)
  | (some argument, p) =>
    match quotedNumber? argument with
    | some n => (n, p)
    | none =>
      match integerAt true argument with
      | none => (0, p.judge argument argument false)
      | some (n, rest) =>
        let least := Int64.minValue.toInt
        let most := Int64.maxValue.toInt
        let wide : Int := UInt64.size - 1
        let value := if isSigned then max least (min n most)
          else if wide < n || n < -wide then wide else n
        (value, p.judge argument rest (value ≠ n))

def nextReal (p : Progress) : Bool × Decimal.Binary64 × Progress :=
  let zero := Decimal.Binary64.finite false 0 0
  match p.next with
  | (none, p) => (false, zero, p)
  | (some argument, p) =>
    match quotedNumber? argument with
    | some n => (false, Decimal.Binary64.ofDecimal false n 0, p)
    | none =>
      match Decimal.numeralAt argument with
      | none => (false, zero, p.judge argument argument false)
      | some n => (n.negative, n.magnitude, p.judge argument n.rest n.outOfRange)

def write (p : Progress) (cs : List Char) : Progress :=
  { p with written := p.written ++ cs }

end Progress

def Layout.fit (l : Layout) (cs : List Char) : List Char :=
  let gap := List.replicate (l.width - cs.length) ' '
  if l.leftward then cs ++ gap else gap ++ cs

def Layout.fillsWithZeros (l : Layout) : Bool :=
  l.flags.contains '0' && !l.leftward

def Layout.fitNumber (l : Layout) (mark digits : List Char) : List Char :=
  let digits := if l.fillsWithZeros then
      List.replicate (l.width - mark.length - digits.length) '0' ++ digits
    else digits
  l.fit (mark ++ digits)

def Layout.sign (l : Layout) (negative : Bool) : List Char :=
  if negative then ['-'] else if l.flags.contains '+' then ['+']
  else if l.flags.contains ' ' then [' '] else []

def Layout.digits (l : Layout) (base n : Nat) : List Char :=
  match l.precision with
  | some 0 => if n = 0 then [] else Nat.toDigits base n
  | some least =>
    let digits := Nat.toDigits base n
    List.replicate (least - digits.length) '0' ++ digits
  | none => Nat.toDigits base n

/-- The layout for a whole number: with a precision nothing else is filled with zeros. -/
def Layout.forWhole (l : Layout) : Layout :=
  if l.precision.isSome then { l with flags := l.flags.filter (· ≠ '0') } else l

def Layout.signed (l : Layout) (n : Int) : List Char :=
  l.forWhole.fitNumber (l.sign (n < 0)) (l.digits 10 n.natAbs)

def Layout.unsigned (l : Layout) (base : Nat) (upper : Bool) (n : Int) : List Char :=
  let word := (n % (UInt64.size : Int)).toNat
  let digits := l.digits base word
  let marked := l.flags.contains '#'
  let digits := if marked && base = 8 && digits.head? ≠ some '0' then '0' :: digits else digits
  let digits := if upper then digits.map Char.toUpper else digits
  let mark := if marked && base = 16 && word ≠ 0 then ['0', if upper then 'X' else 'x'] else []
  l.forWhole.fitNumber mark digits

def Layout.real (l : Layout) (letter : Char) (negative : Bool) (x : Decimal.Binary64) :
    List Char :=
  let upper := fun (cs : List Char) => if letter.isUpper then cs.map Char.toUpper else cs
  let sign := l.sign negative
  match x with
  | .nan => l.fit (sign ++ upper "nan".toList)
  | .infinite _ => l.fit (sign ++ upper "inf".toList)
  | .finite _ mantissa exponent =>
    let f := Decimal.Fraction.scaled mantissa 2 exponent
    let showsPoint := l.flags.contains '#'
    let places := l.precision.getD 6
    match letter.toLower with
    | 'f' => l.fitNumber sign (f.fixed places showsPoint)
    | 'e' => l.fitNumber sign (upper (f.scientific places showsPoint))
    | 'g' => l.fitNumber sign (upper (f.general places showsPoint))
    | _ =>
      let text := upper (Decimal.hexadecimal mantissa exponent l.precision showsPoint)
      l.fitNumber (sign ++ text.take 2) (text.drop 2)

def maxMeasure : Nat := 2147483647

/-- The number that a part of a directive gives, as digits or as an argument, and what follows. Of
an argument only the lower half of a word counts. -/
def measure (p : Progress) : List Char → Int × List Char × Progress
  | '*' :: r =>
    let (n, p) := p.nextWord true
    (n.bmod (2 * (maxMeasure + 1)), r, p)
  | cs =>
    let (n, rest) := digitsAt 10 0 cs
    (n, rest, p)

def directive (p : Progress) (cs : List Char) : Progress × List Char :=
  let flags := cs.takeWhile ['#', '-', '+', ' ', '0'].contains
  let (width, rest, p) := measure p (cs.drop flags.length)
  let (precision, rest, p) := match rest with
    | '.' :: r =>
      let (n, rest, p) := measure p r
      (if n < 0 then none else some n.toNat, rest, p)
    | rest => (none, rest, p)
  let isTooLong := maxMeasure < width.natAbs || maxMeasure < precision.getD 0
  let layout : Layout := ⟨flags, width.natAbs, flags.contains '-' || width < 0, precision⟩
  let cut := fun (cs : List Char) => match precision with
    | some n => cs.take n
    | none => cs
  let whole := fun (isSigned : Bool) (render : Int → List Char) =>
    let (n, p) := p.nextWord isSigned
    p.write (render n)
  match rest with
  | [] => ({ p with refused := some "missing format character" }, [])
  | letter :: r =>
    if isTooLong then ({ p with refused := some "xvsnprintf failed" }, [])
    else match letter with
    | 's' =>
      let (text, p) := p.next
      (p.write (layout.fit (cut (text.getD []))), r)
    | 'b' =>
      let (text, p) := p.next
      let (cs, stopped) := unescape (text.getD []) ((text.getD []).length + 1)
      ({ p.write (layout.fit (cut cs)) with stopped }, r)
    | 'c' =>
      let (text, p) := p.next
      (p.write (layout.fit [((text.getD []).head?).getD '\x00']), r)
    | 'd' | 'i' => (whole true layout.signed, r)
    | 'u' => (whole false (layout.unsigned 10 false), r)
    | 'o' => (whole false (layout.unsigned 8 false), r)
    | 'x' => (whole false (layout.unsigned 16 false), r)
    | 'X' => (whole false (layout.unsigned 16 true), r)
    | 'a' | 'A' | 'e' | 'E' | 'f' | 'F' | 'g' | 'G' =>
      let (negative, x, p) := p.nextReal
      (p.write (layout.real letter negative x), r)
    | _ =>
      let shown := '%' :: cs.take (cs.length - r.length)
      ({ p with refused := some (Text.Octets.toText shown ++ ": invalid directive") }, [])

def once (p : Progress) (format : List Char) : Nat → Progress
  | 0 => p
  | n + 1 =>
    if p.stopped || p.refused.isSome then p
    else
      match format with
      | [] => p
      | '\\' :: r =>
        let (cs, rest) := escapeAt r
        once (p.write cs) rest n
      | '%' :: '%' :: r => once (p.write ['%']) r n
      | '%' :: r =>
        let (p, rest) := directive p r
        once p rest n
      | c :: r =>
        let run := r.takeWhile fun d => d ≠ '%' && d ≠ '\\'
        once (p.write (c :: run)) (r.drop run.length) n

/-- As many uses of a format as its arguments ask for, and at most as many as the number says. -/
def uses (p : Progress) (format : List Char) : Nat → Progress
  | 0 => p
  | n + 1 =>
    let p := once { p with consumed := false } format (format.length + 1)
    if p.stopped || p.refused.isSome || p.arguments.isEmpty || !p.consumed then p
    else uses p format n

def run (format : List Char) (arguments : List (List Char)) : Progress :=
  uses { arguments } format (arguments.length + 1)

end SnippetLens.Shell.Format
