import SnippetLens.Files.Failure
import SnippetLens.Listing.Source
import SnippetLens.Text.ByteLines

/-!
Lines that are read from a stream of bytes. The stream hands out its bytes in chunks, and a read
may fail. A failed read ends the lines like the end of the stream, and is remembered; so whoever
has read to the end can tell a complete listing from one that broke off.
-/

namespace SnippetLens.Listing

open Files

inductive Reading where
  /-- Some bytes; none are the end of the stream. -/
  | bytes (chunk : List UInt8)
  | failed (cause : Failure)
  deriving DecidableEq, Repr

structure ByteStream where
  /-- What was read and is not part of a line yet. -/
  pending : List UInt8 := []
  /-- What the next reads answer. After the last one the stream is at its end. -/
  reads : List Reading
  /-- The failure of the last read that failed. -/
  failure : Option Failure := none
  deriving DecidableEq, Repr

namespace ByteStream

def ofBytes (bytes : List UInt8) : ByteStream :=
  { reads := [.bytes bytes] }

def weight : List Reading → Nat
  | [] => 0
  | .bytes chunk :: reads => chunk.length + 1 + weight reads
  | .failed _ :: reads => 1 + weight reads

def left (pending : List UInt8) (reads : List Reading) : Nat :=
  pending.length + weight reads

/-- The next line of a stream, with the start of it, last byte first, given. -/
def lineFrom (failure : Option Failure) (line pending : List UInt8) (reads : List Reading) :
    Option (List UInt8) × ByteStream :=
  match pending with
  | b :: pending =>
    if b = Text.lineFeed then (some (b :: line).reverse, ⟨pending, reads, failure⟩)
    else lineFrom failure (b :: line) pending reads
  | [] =>
    match reads with
    | .bytes (b :: chunk) :: reads => lineFrom failure line (b :: chunk) reads
    | .failed cause :: reads => (none, ⟨[], reads, some cause⟩)
    | .bytes [] :: reads => (if line.isEmpty then none else some line.reverse, ⟨[], reads, failure⟩)
    | [] => (if line.isEmpty then none else some line.reverse, ⟨[], [], failure⟩)
termination_by left pending reads
decreasing_by all_goals simp [left, weight]; try omega

def next (s : ByteStream) : Option String × ByteStream :=
  let r := lineFrom s.failure [] s.pending s.reads
  (r.1.map Text.lineOfBytes, r.2)

def size (s : ByteStream) : Nat :=
  left s.pending s.reads

theorem size_lineFrom_le (failure : Option Failure) (line pending : List UInt8)
    (reads : List Reading) :
    (lineFrom failure line pending reads).2.size ≤ left pending reads := by
  fun_induction lineFrom failure line pending reads <;> simp_all [size, left, weight] <;> omega

/-- A line that is found takes something from the stream, unless it was begun before. -/
theorem size_lineFrom_lt {failure : Option Failure} {pending : List UInt8} {reads : List Reading}
    (h : (lineFrom failure [] pending reads).1.isSome) :
    (lineFrom failure [] pending reads).2.size < left pending reads := by
  match pending, reads with
  | b :: pending, reads =>
    rw [lineFrom]
    split
    · simp [size, left]
    · have := size_lineFrom_le failure [b] pending reads
      simp only [left, List.length_cons] at this ⊢
      omega
  | [], .bytes (b :: chunk) :: reads =>
    rw [lineFrom]
    have := size_lineFrom_le failure [] (b :: chunk) reads
    simp only [left, weight, List.length_cons, List.length_nil] at this ⊢
    omega
  | [], .bytes [] :: reads => simp [lineFrom] at h
  | [], .failed cause :: reads => simp [lineFrom] at h
  | [], [] => simp [lineFrom] at h

end ByteStream

instance : LineSource ByteStream where
  next := ByteStream.next
  size := ByteStream.size
  size_next_lt := by
    intro s s' line h
    simp only [ByteStream.next, Prod.mk.injEq] at h
    rw [← h.2]
    exact ByteStream.size_lineFrom_lt (by cases hf : (ByteStream.lineFrom _ _ _ _).1 <;> simp_all)
  size_next_le := by
    intro s s' h
    simp only [ByteStream.next, Prod.mk.injEq] at h
    rw [← h.2]
    exact ByteStream.size_lineFrom_le _ _ _ _

end SnippetLens.Listing
