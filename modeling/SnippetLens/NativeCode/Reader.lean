import SnippetLens.Listing.Cursor
import SnippetLens.NativeCode.Scan

/-!
Condensing a native code dump straight from a source.

The lines up to the one that opens the listing are passed over at once, and so are those between
the header of a method and the line that heads its code. If there is none, the source is at its
end, and so is the reading. Items are put out last first.
-/

namespace SnippetLens.NativeCode

open Listing

variable {σ : Type} [LineSource σ]

def readLines (options : FilterOptions) (region : Region) (out : List Item)
    (c : LineCursor σ) : List Item × LineCursor σ :=
  match _h : c.advance with
  | (none, c') => (out, c')
  | (some line, c') =>
    match dispatch rules options region line with
    | none => readLines options region out c'
    | some (.beforeCode, items) =>
      match _h' : c'.skipTo headsCode with
      | (none, c'') => (items.reverse ++ out, c'')
      | (some _, c'') => readLines options .code (items.reverse ++ out) c''
    | some (region, items) => readLines options region (items.reverse ++ out) c'
termination_by c.remaining
decreasing_by
  · exact LineCursor.remaining_advance_lt _h
  · exact Nat.lt_trans (LineCursor.remaining_skipTo_lt _h') (LineCursor.remaining_advance_lt _h)
  · exact LineCursor.remaining_advance_lt _h

def readDump (options : FilterOptions) (source : σ) : List Item × LineCursor σ :=
  match (LineCursor.ofSource source).skipTo opensListing with
  | (none, c) => ([], c)
  | (some _, c) =>
    let r := readLines options .outside [] c
    (r.1.reverse, r.2)

end SnippetLens.NativeCode
