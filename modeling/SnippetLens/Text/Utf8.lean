/-!
Reading bytes as UTF-8. The decoder is a machine that takes one byte at a time; where the bytes
are not UTF-8 it reports one fault for each longest beginning of a character that the next byte
cannot continue, and reads that byte again as the start of a character.

Reading strictly refuses a text with a fault; reading leniently puts the replacement character
in the place of each.
-/

namespace SnippetLens.Text.Utf8

/-- A character begun but not complete: its bits so far, how many bytes are owed, and the least
and the greatest byte that the next one may be. -/
structure Partial where
  bits : Nat
  owed : Nat
  low : UInt8
  high : UInt8
  deriving DecidableEq, Repr

/-- Between characters, or inside one. -/
abbrev State := Option Partial

/-- A character, or the place of a fault. -/
abbrev Piece := Option Char

def Partial.accepts (p : Partial) (b : UInt8) : Bool :=
  p.low ≤ b && b ≤ p.high

def first (b : UInt8) : State × List Piece :=
  if b < 0x80 then (none, [some (Char.ofNat b.toNat)])
  else if b < 0xC2 then (none, [none])
  else if b < 0xE0 then (some ⟨b.toNat - 0xC0, 1, 0x80, 0xBF⟩, [])
  else if b = 0xE0 then (some ⟨0, 2, 0xA0, 0xBF⟩, [])
  else if b = 0xED then (some ⟨0xD, 2, 0x80, 0x9F⟩, [])
  else if b < 0xF0 then (some ⟨b.toNat - 0xE0, 2, 0x80, 0xBF⟩, [])
  else if b = 0xF0 then (some ⟨0, 3, 0x90, 0xBF⟩, [])
  else if b < 0xF4 then (some ⟨b.toNat - 0xF0, 3, 0x80, 0xBF⟩, [])
  else if b = 0xF4 then (some ⟨4, 3, 0x80, 0x8F⟩, [])
  else (none, [none])

/-- One byte: the state after it and what it completes. -/
def step : State → UInt8 → State × List Piece
  | none, b => first b
  | some p, b =>
    if p.accepts b then
      let bits := p.bits * 64 + (b.toNat - 0x80)
      if p.owed ≤ 1 then (none, [some (Char.ofNat bits)])
      else (some ⟨bits, p.owed - 1, 0x80, 0xBF⟩, [])
    else
      let r := first b
      (r.1, none :: r.2)

/-- The end of the bytes: a character that is not complete is a fault. -/
def finish : State → List Piece
  | none => []
  | some _ => [none]

/-- One byte on a decoding under way, its pieces kept last first. -/
def feed (s : State × List Piece) (b : UInt8) : State × List Piece :=
  let r := step s.1 b
  (r.1, r.2.reverse ++ s.2)

def decode (bs : List UInt8) : List Piece :=
  let r := bs.foldl feed (none, [])
  ((finish r.1).reverse ++ r.2).reverse

def replacement : Char := '\uFFFD'

/-- The text of the bytes, each fault shown as a replacement character. -/
def lenient (bs : List UInt8) : String :=
  String.ofList ((decode bs).map (·.getD replacement))

def strict? (bs : List UInt8) : Option String :=
  ((decode bs).mapM id).map String.ofList

def encode (s : String) : List UInt8 :=
  s.toUTF8.toList

end SnippetLens.Text.Utf8
