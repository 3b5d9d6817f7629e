import SnippetLens.Shell.Script

/-!
Texts in quotes, as a script would write them. Between single quotes all characters stand for
themselves but the quote; a run of those is written between double quotes.
-/

namespace SnippetLens.Shell

def quoteParts (cs : List Char) : Nat → List Char
  | 0 => []
  | n + 1 =>
    let plain := cs.takeWhile (· ≠ '\'')
    let quotes := (cs.drop plain.length).takeWhile (· = '\'')
    let after := (cs.drop plain.length).drop quotes.length
    let first := '\'' :: plain ++ ['\'']
    let second := if quotes.isEmpty then [] else '"' :: quotes ++ ['"']
    first ++ second ++ if after.isEmpty then [] else quoteParts after n

def quote (cs : List Char) : List Char :=
  quoteParts cs (cs.length + 1)

/-- The place of a name in a table of so many rows, in which names are listed row by row. -/
def row (rows : Nat) (name : Name) : Nat :=
  let first := ((name.head?.map Char.toNat).getD 0) * 16
  (name.foldl (fun n c => n + c.toNat) first) % rows

end SnippetLens.Shell
