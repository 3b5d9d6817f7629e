/-!
Where the lines of a listing come from. A source hands out one line at a time and reports its
end by handing out none; it may be asked again after that. A source is finite: `size` bounds
the lines that are still to come, so that a scan to the end is a total function.
-/

namespace SnippetLens.Listing

class LineSource (σ : Type) where
  /-- The next line, or none at the end, and the source after it. -/
  next : σ → Option String × σ
  /-- A bound on the lines still to come. -/
  size : σ → Nat
  size_next_lt : ∀ {s s' : σ} {line : String}, next s = (some line, s') → size s' < size s
  size_next_le : ∀ {s s' : σ}, next s = (none, s') → size s' ≤ size s

def nextOfList : List String → Option String × List String
  | [] => (none, [])
  | line :: rest => (some line, rest)

instance : LineSource (List String) where
  next := nextOfList
  size := List.length
  size_next_lt := by
    intro s s' line h
    cases s <;> simp_all [nextOfList]
  size_next_le := by
    intro s s' h
    cases s <;> simp_all [nextOfList]

end SnippetLens.Listing
