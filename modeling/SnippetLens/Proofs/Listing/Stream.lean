import SnippetLens.Listing.Dump
import SnippetLens.Listing.Stream
import SnippetLens.Proofs.Bytecode.Reader
import SnippetLens.Proofs.NativeCode.Reader
import SnippetLens.Proofs.Text.Lines

/-!
Condensing a source is condensing the lines that it hands out.

A source is read part by part, and a list of lines is scanned; the two agree on every source that
stays at its end. A stream that delivers some bytes hands out the lines of these bytes, however they
are cut into chunks: what is left of them after each line are the pieces behind the first one.

A stream that fails does not have to stay at its end, and it is read until it has no line. By then
its first failure has been noticed, and no failure is forgotten.
-/

namespace SnippetLens.Listing

/-! ### Sources -/

section Sources

variable {σ : Type} [LineSource σ]

theorem condenseSource_of_hands (kind : DumpKind) (options : FilterOptions) {source : σ}
    {lines : List String} (h : Hands source lines) :
    (kind.condenseSource options source).1 = kind.condenseLines options lines := by
  cases kind with
  | bytecode => exact congrArg Bytecode.render (Bytecode.readDump_eq_scan options h)
  | nativeCode => exact congrArg NativeCode.render (NativeCode.readDump_eq_scan options h)

theorem ended_condenseSource (kind : DumpKind) (options : FilterOptions) (source : σ) :
    Ended source (kind.condenseSource options source).2 := by
  cases kind with
  | bytecode => exact Bytecode.ended_readDump options source
  | nativeCode => exact NativeCode.ended_readDump options source

end Sources

/-! ### Streams -/

/-- The bytes that reads deliver. An answer without bytes is the end, so none with bytes comes after
it; no read fails. -/
inductive Delivers : List Reading → List UInt8 → Prop
  | nothing : Delivers [] []
  | some {chunk bytes : List UInt8} {reads : List Reading} (hchunk : chunk ≠ [])
      (hreads : Delivers reads bytes) : Delivers (.bytes chunk :: reads) (chunk ++ bytes)
  | ended {reads : List Reading} (hreads : Delivers reads []) : Delivers (.bytes [] :: reads) []

theorem delivers_ofBytes (bytes : List UInt8) :
    Delivers (ByteStream.ofBytes bytes).reads bytes := by
  cases bytes with
  | nil => exact .ended .nothing
  | cons b bytes =>
    have h := Delivers.some (List.cons_ne_nil b bytes) .nothing
    rwa [List.append_nil] at h

theorem Delivers.failed_notMem {reads : List Reading} {bytes : List UInt8}
    (h : Delivers reads bytes) (cause : Files.Failure) : .failed cause ∉ reads := by
  induction h with
  | nothing => simp
  | some _ _ ih => simpa using ih
  | ended _ ih => simpa using ih

namespace ByteStream

open Text in
/-- What is found in a stream is the first piece, and the others are left in it. -/
theorem lineFrom_of_delivers (failure : Option Files.Failure) (line pending : List UInt8)
    {reads : List Reading} {bytes : List UInt8} (h : Delivers reads bytes) :
    (lineFrom failure line pending reads).1 =
        (piecesFrom lineFeed line (pending ++ bytes)).head? ∧
      ∃ rest, Delivers (lineFrom failure line pending reads).2.reads rest ∧
        pieces lineFeed ((lineFrom failure line pending reads).2.pending ++ rest) =
          (piecesFrom lineFeed line (pending ++ bytes)).tail := by
  have hend (line : List UInt8) : (if line.isEmpty then none else some line.reverse) =
        (piecesFrom lineFeed line []).head? ∧ [] = (piecesFrom lineFeed line []).tail := by
    cases line <;> simp [piecesFrom]
  -- The line goes on until a line feed in what is pending, or until the reads have no more bytes.
  fun_induction lineFrom failure line pending reads generalizing bytes with
  | case1 line reads pending =>
    refine ⟨by simp [piecesFrom], bytes, h, ?_⟩
    simp [piecesFrom, pieces]
  | case2 line reads b pending hb ih => simpa [piecesFrom, hb] using ih h
  | case3 line b chunk reads ih =>
    cases h with
    | some _ hreads => simpa using ih hreads
  | case4 => cases h
  | case5 line reads =>
    cases h with
    | some hchunk _ => exact absurd rfl hchunk
    | ended hreads => exact ⟨(hend line).1, [], hreads, (hend line).2⟩
  | case6 line =>
    cases h
    exact ⟨(hend line).1, [], .nothing, (hend line).2⟩

theorem next_of_delivers {s : ByteStream} {bytes : List UInt8} (h : Delivers s.reads bytes) :
    (LineSource.next s).1 = (Text.byteLines (s.pending ++ bytes)).head? ∧
      ∃ rest, Delivers (LineSource.next s).2.reads rest ∧
        Text.byteLines ((LineSource.next s).2.pending ++ rest) =
          (Text.byteLines (s.pending ++ bytes)).tail := by
  obtain ⟨hpiece, rest, hreads, hrest⟩ := lineFrom_of_delivers s.failure [] s.pending h
  refine ⟨?_, rest, hreads, ?_⟩
  · rw [Text.byteLines, List.head?_map]
    exact congrArg (Option.map Text.lineOfBytes) hpiece
  · rw [Text.byteLines, Text.byteLines, ← List.map_tail]
    exact congrArg (List.map Text.lineOfBytes) hrest

/-- Whether a stream has nothing left to deliver. -/
def Idle (s : ByteStream) : Prop :=
  ∃ rest, Delivers s.reads rest ∧ Text.byteLines (s.pending ++ rest) = []

theorem Idle.next {s : ByteStream} (h : s.Idle) : (LineSource.next s).2.Idle := by
  obtain ⟨bytes, hreads, hnone⟩ := h
  obtain ⟨-, rest, hafter, hrest⟩ := next_of_delivers hreads
  exact ⟨rest, hafter, by rw [hrest, hnone, List.tail_nil]⟩

theorem Idle.spent {s : ByteStream} (h : s.Idle) : Spent s := by
  intro after hafter
  obtain ⟨rest, hreads, hrest⟩ := hafter.keeps Idle.next h
  rw [(next_of_delivers hreads).1, hrest, List.head?_nil]

theorem hands_of_delivers {s : ByteStream} {bytes : List UInt8} (h : Delivers s.reads bytes) :
    Hands s (Text.byteLines (s.pending ++ bytes)) := by
  generalize hlines : Text.byteLines (s.pending ++ bytes) = lines
  induction lines generalizing s bytes with
  | nil => exact .spent (Idle.spent ⟨bytes, h, hlines⟩)
  | cons line lines ih =>
    obtain ⟨hline, rest, hreads, hrest⟩ := next_of_delivers h
    rw [hlines, List.head?_cons] at hline
    rw [hlines, List.tail_cons] at hrest
    exact .line (Prod.ext hline rfl) (ih hreads hrest)

/-! ### Failures -/

/-- A failure that is remembered was answered by a read, or remembered before. -/
theorem lineFrom_failure (failure : Option Files.Failure) (line pending : List UInt8)
    (reads : List Reading) :
    (lineFrom failure line pending reads).2.reads <:+ reads ∧
      ((lineFrom failure line pending reads).2.failure = failure ∨
        ∃ cause, .failed cause ∈ reads ∧
          (lineFrom failure line pending reads).2.failure = some cause) := by
  fun_induction lineFrom failure line pending reads with
  | case1 line reads pending => exact ⟨List.suffix_rfl, .inl rfl⟩
  | case2 line reads b pending hb ih => exact ih
  | case3 line b chunk reads ih =>
    obtain ⟨hreads, hfailure⟩ := ih
    refine ⟨hreads.trans (List.suffix_cons ..), hfailure.imp_right ?_⟩
    rintro ⟨cause, hcause, hsome⟩
    exact ⟨cause, List.mem_cons_of_mem _ hcause, hsome⟩
  | case4 line cause reads => exact ⟨List.suffix_cons .., .inr ⟨cause, by simp, rfl⟩⟩
  | case5 line reads => exact ⟨List.suffix_cons .., .inl rfl⟩
  | case6 line => exact ⟨List.suffix_rfl, .inl rfl⟩

def Sound (s : ByteStream) : Prop :=
  s.failure = none ∧ ∀ cause, .failed cause ∉ s.reads

theorem Sound.next {s : ByteStream} (h : s.Sound) : (LineSource.next s).2.Sound := by
  obtain ⟨hreads, hfailure⟩ := lineFrom_failure s.failure [] s.pending s.reads
  refine ⟨?_, fun cause hcause => h.2 cause (hreads.subset hcause)⟩
  rcases hfailure with hfailure | ⟨cause, hcause, -⟩
  · exact hfailure.trans h.1
  · exact absurd hcause (h.2 cause)

/-- Whether a stream delivers some chunks before it comes to `reads`. -/
def ComesTo (reads : List Reading) (s : ByteStream) : Prop :=
  ∃ served : List (List UInt8), [] ∉ served ∧ s.reads = served.map .bytes ++ reads

def HasFailed (reads : List Reading) (s : ByteStream) : Prop :=
  s.reads <:+ reads ∧ ∃ cause, .failed cause ∈ reads ∧ s.failure = some cause

theorem HasFailed.next {reads : List Reading} {s : ByteStream} (h : s.HasFailed reads) :
    (LineSource.next s).2.HasFailed reads := by
  obtain ⟨hs, cause, hcause, hsome⟩ := h
  obtain ⟨hreads, hfailure⟩ := lineFrom_failure s.failure [] s.pending s.reads
  refine ⟨hreads.trans hs, ?_⟩
  rcases hfailure with hfailure | ⟨cause, hcause, hsome⟩
  · exact ⟨cause, hcause, hfailure.trans hsome⟩
  · exact ⟨cause, hs.subset hcause, hsome⟩

/-- What is found before a read that fails is a line, and the failure ends the lines. -/
theorem lineFrom_of_comesTo (failure : Option Files.Failure) (line pending : List UInt8)
    {reads rest : List Reading} {cause : Files.Failure} {served : List (List UInt8)}
    (hserved : [] ∉ served) (hreads : reads = served.map .bytes ++ .failed cause :: rest) :
    ((lineFrom failure line pending reads).1.isSome ∧
        (lineFrom failure line pending reads).2.ComesTo (.failed cause :: rest)) ∨
      lineFrom failure line pending reads = (none, ⟨[], rest, some cause⟩) := by
  fun_induction lineFrom failure line pending reads generalizing served with
  | case1 line reads pending => exact .inl ⟨rfl, served, hserved, hreads⟩
  | case2 line reads b pending hb ih => exact ih hserved hreads
  | case3 line b chunk reads ih =>
    cases served with
    | nil => cases hreads
    | cons first served =>
      obtain ⟨-, rfl⟩ := List.cons.inj hreads
      exact ih (List.not_mem_of_not_mem_cons hserved) rfl
  | case4 line cause' reads =>
    cases served with
    | nil =>
      cases hreads
      exact .inr rfl
    | cons first served => cases hreads
  | case5 line reads =>
    cases served with
    | nil => cases hreads
    | cons first served =>
      cases hreads
      exact absurd (by simp) hserved
  | case6 line => cases served <;> cases hreads

theorem ComesTo.next {rest : List Reading} {cause : Files.Failure} {s : ByteStream}
    (h : s.ComesTo (.failed cause :: rest)) :
    ((LineSource.next s).1.isSome ∧
        (LineSource.next s).2.ComesTo (.failed cause :: rest)) ∨
      (LineSource.next s).2.HasFailed (.failed cause :: rest) := by
  obtain ⟨served, hserved, hreads⟩ := h
  rcases lineFrom_of_comesTo s.failure [] s.pending hserved hreads with ⟨hline, hafter⟩ | hfailed
  · exact .inl ⟨by simpa [LineSource.next, ByteStream.next] using hline, hafter⟩
  · refine .inr ?_
    simp only [LineSource.next, ByteStream.next, hfailed]
    exact ⟨List.suffix_cons .., cause, by simp, rfl⟩

/-- Whether a stream comes to some reads, or is past the failure that they begin with. -/
def Fails (reads : List Reading) (s : ByteStream) : Prop :=
  s.ComesTo reads ∨ s.HasFailed reads

theorem Fails.next {rest : List Reading} {cause : Files.Failure} {s : ByteStream}
    (h : s.Fails (.failed cause :: rest)) :
    (LineSource.next s).2.Fails (.failed cause :: rest) := by
  rcases h with hcomes | hfailed
  · exact hcomes.next.imp_left And.right
  · exact .inr hfailed.next

theorem Fails.hasFailed_of_ended {rest : List Reading} {cause : Files.Failure}
    {s after : ByteStream} (h : s.Fails (.failed cause :: rest)) (hended : Ended s after) :
    after.HasFailed (.failed cause :: rest) := by
  obtain ⟨last, hasked, hlast⟩ := hended
  have hafter : (LineSource.next last).2 = after := congrArg Prod.snd hlast
  rw [← hafter]
  rcases hasked.keeps Fails.next h with hcomes | hfailed
  · exact hcomes.next.resolve_left (by simp [hlast])
  · exact hfailed.next

theorem Sound.of_ended {s after : ByteStream} (h : s.Sound) (hended : Ended s after) :
    after.Sound := by
  obtain ⟨last, hasked, hlast⟩ := hended
  have hafter : (LineSource.next last).2 = after := congrArg Prod.snd hlast
  rw [← hafter]
  exact (hasked.keeps Sound.next h).next

end ByteStream

end SnippetLens.Listing
