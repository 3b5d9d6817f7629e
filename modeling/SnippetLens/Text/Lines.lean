/-!
Cutting a sequence into lines. One cut serves characters and bytes: a piece ends with its
separator, and only the last piece may lack it. What a line keeps of its piece is a matter of
the reader; a text keeps a carriage return unless a line feed follows it.
-/

namespace SnippetLens.Text

/-- The pieces of a sequence, with the start of the first one, last element first, given. -/
def piecesFrom [DecidableEq α] (separator : α) (current : List α) : List α → List (List α)
  | [] => if current.isEmpty then [] else [current.reverse]
  | a :: r =>
    if a = separator then (a :: current).reverse :: piecesFrom separator [] r
    else piecesFrom separator (a :: current) r

/-- The pieces of a sequence: each ends with the separator, except perhaps the last, and none
is empty. -/
def pieces [DecidableEq α] (separator : α) (s : List α) : List (List α) :=
  piecesFrom separator [] s

/-- The sequence without its last element, when that is `a`. -/
def dropEnd [DecidableEq α] (a : α) (s : List α) : List α :=
  if s.getLast? = some a then s.dropLast else s

/-- The line in a piece of text: without the line feed and a carriage return before it. -/
def lineOfPiece (piece : List Char) : List Char :=
  if piece.getLast? = some '\n' then dropEnd '\r' piece.dropLast else piece

/-- The lines of a text. A last line without a line feed keeps a carriage return, and there is
no empty line after the last line feed. -/
def lines (s : String) : List String :=
  (pieces '\n' s.toList).map fun piece => String.ofList (lineOfPiece piece)

theorem piecesFrom_append_cons [DecidableEq α] {separator : α} {piece : List α}
    (h : separator ∉ piece) (current rest : List α) :
    piecesFrom separator current (piece ++ separator :: rest) =
      (current.reverse ++ piece ++ [separator]) :: pieces separator rest := by
  induction piece generalizing current with
  | nil => simp [piecesFrom, pieces]
  | cons a piece ih =>
    have ha : a ≠ separator := fun heq => h (by simp [heq])
    have hpiece : separator ∉ piece := fun hmem => h (by simp [hmem])
    simp [piecesFrom, ha, ih hpiece]

/-- What ends with the first separator is the first piece. -/
theorem pieces_append_cons [DecidableEq α] {separator : α} {piece : List α}
    (h : separator ∉ piece) (rest : List α) :
    pieces separator (piece ++ separator :: rest) =
      (piece ++ [separator]) :: pieces separator rest :=
  piecesFrom_append_cons h [] rest

end SnippetLens.Text
