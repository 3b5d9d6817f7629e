import SnippetLens.Bytecode.Reader
import SnippetLens.Proofs.Bytecode.WellFormed
import SnippetLens.Proofs.Listing.Source

/-!
Reading a bytecode dump from a source, and scanning its lines.

Each part of a dump puts out what the scan puts out from the place where the part begins, up to the
place where the part around it goes on. So a source that stays at its end is condensed like its
lines. Any source is read until it has no line.
-/

namespace SnippetLens.Bytecode

open Listing

variable {σ : Type} [LineSource σ]

/-! ### The scan, part by part -/

section Scan

variable (options : FilterOptions) (owner : Owner)

theorem outputFrom_betweenClasses (lines : List String) :
    (scanner options).outputFrom .betweenClasses lines =
      match lines.dropWhile (!isClassStart ·) with
      | [] => []
      | _ :: rest => (scanner options).outputFrom .descriptor rest :=
  Scanner.outputFrom_of_waits (scanner options) (fun _ => rfl) rfl lines

theorem outputFrom_beforeMethods (lines : List String) :
    (scanner options).outputFrom (.beforeMethods owner) lines =
      match lines.dropWhile (!headsDirectMethods ·) with
      | [] => []
      | _ :: rest => (scanner options).outputFrom (.betweenMethods owner) rest :=
  Scanner.outputFrom_of_waits (scanner options) (fun _ => rfl) rfl lines

theorem outputFrom_descriptor (lines : List String) :
    (scanner options).outputFrom .descriptor lines =
      (openNamed options lines.head?).2 ++ (scanner options).outputFrom
        (.beforeMethods (openNamed options lines.head?).1) lines.tail := by
  cases lines with
  | nil => exact (List.append_nil _).symm
  | cons line lines => rfl

/-- A class is opened by the line behind its start, also when there is none. -/
theorem outputFrom_of_start {lines rest : List String} {found : String}
    (h : lines.dropWhile (!isClassStart ·) = found :: rest) :
    (scanner options).outputFrom .betweenClasses lines =
      (openNamed options rest.head?).2 ++ (scanner options).outputFrom
        (.beforeMethods (openNamed options rest.head?).1) rest.tail := by
  rw [outputFrom_betweenClasses, h]
  exact outputFrom_descriptor options rest

theorem outputFrom_methodType (name : String) (lines : List String) :
    (scanner options).outputFrom (.methodType owner name) lines =
      owner.puts [.method name ((lines.head?.bind methodType?).getD unknownName) owner.name] ++
        (scanner options).outputFrom (.body owner) lines.tail := by
  cases lines with
  | cons line lines => rfl
  | nil =>
    cases hshown : owner.shown <;> simp [Scanner.outputFrom, scanner, finish, Owner.puts, hshown]

theorem outputFrom_methodName (lines : List String) :
    (scanner options).outputFrom (.methodName owner) lines =
      (scanner options).outputFrom
        (.methodType owner ((lines.head?.bind methodName?).getD unknownName)) lines.tail := by
  cases lines <;> rfl

end Scan

/-! ### The readings -/

section Readings

theorem reads_puts {owner : Owner} {item : Item} {r : List Item × LineCursor σ}
    {out whole : List Item} {after : List String → List Item}
    (h : Reads r (owner.puts [item] ++ out) whole after) :
    Reads r out (owner.puts [item] ++ whole) after := by
  have hreverse : (owner.puts [item]).reverse = owner.puts [item] := by
    cases hshown : owner.shown <;> simp [Owner.puts, hshown]
  exact .put (by rwa [hreverse])

variable (options : FilterOptions) (owner : Owner)

theorem reads_readBody {c : LineCursor σ} {lines : List String} (h : c.Hands lines)
    (out : List Item) :
    Reads (readBody owner out c) out ((scanner options).outputFrom (.body owner) lines)
      fun rest =>
        owner.puts [.gap] ++ (scanner options).outputFrom (.betweenMethods owner) rest := by
  fun_induction readBody owner out c generalizing lines with
  | case1 out c c' hpeek =>
    obtain ⟨rfl, hnil⟩ := h.of_peek_none hpeek
    exact .stop hnil (outputFrom_body_of_boundary options owner (by simp))
  | case2 out c line c' hpeek text hline ih =>
    obtain ⟨rest, rfl, -, hrest⟩ := h.of_peek_some hpeek
    have hstep : (scanner options).step (.body owner) line =
        (.body owner, owner.puts [.instruction text]) := by
      simp only [scanner, step, stepBody, hline]
    rw [Scanner.outputFrom, hstep]
    exact reads_puts (ih hrest)
  | case3 out c line c' hpeek hline ih =>
    obtain ⟨rest, rfl, -, hrest⟩ := h.of_peek_some hpeek
    have hstep : (scanner options).step (.body owner) line = (.body owner, []) := by
      simp only [scanner, step, stepBody, hline]
    rw [Scanner.outputFrom, hstep]
    exact ih hrest
  | case4 out c line c' hpeek hline =>
    obtain ⟨rest, rfl, hlines, -⟩ := h.of_peek_some hpeek
    exact .stop hlines (outputFrom_body_of_boundary options owner (by simpa using hline))

theorem reads_readMethod {c : LineCursor σ} {lines : List String} (h : c.Hands lines)
    (out : List Item) :
    Reads (readMethod owner out c) out ((scanner options).outputFrom (.methodName owner) lines)
      ((scanner options).outputFrom (.betweenMethods owner)) := by
  obtain ⟨hname, hlines⟩ := h.advance
  obtain ⟨htype, hbody⟩ := hlines.advance
  rw [outputFrom_methodName, outputFrom_methodType, ← hname, ← htype]
  exact (reads_puts (reads_readBody options owner hbody _)).andThen fun hrest =>
    reads_puts (.stop hrest rfl)

theorem reads_readMethods {c : LineCursor σ} {lines : List String} (h : c.Hands lines)
    (out : List Item) :
    Reads (readMethods options owner out c) out
      ((scanner options).outputFrom (.betweenMethods owner) lines)
      ((scanner options).outputFrom .betweenClasses) := by
  fun_induction readMethods options owner out c generalizing lines with
  | case1 out c c' hpeek =>
    obtain ⟨rfl, hnil⟩ := h.of_peek_none hpeek
    exact .stop hnil rfl
  | case2 out c line c' hpeek hblank ih =>
    obtain ⟨rest, rfl, -, hrest⟩ := h.of_peek_some hpeek
    have hstep : (scanner options).step (.betweenMethods owner) line =
        (.betweenMethods owner, []) := by
      simp [scanner, step, stepBetweenMethods, hblank]
    rw [Scanner.outputFrom, hstep]
    exact ih hrest
  | case3 out c line c' hpeek hblank hstart r =>
    rename_i ih
    obtain ⟨rest, rfl, -, hrest⟩ := h.of_peek_some hpeek
    have hstep : (scanner options).step (.betweenMethods owner) line =
        (.methodName owner, []) := by
      simp [scanner, step, stepBetweenMethods, hblank, hstart]
    rw [Scanner.outputFrom, hstep]
    exact (reads_readMethod options owner hrest out).andThen ih
  | case4 out c line c' hpeek hblank hstart hvirtual ih =>
    obtain ⟨rest, rfl, -, hrest⟩ := h.of_peek_some hpeek
    have hstep : (scanner options).step (.betweenMethods owner) line =
        (.betweenMethods owner, []) := by
      simp [scanner, step, stepBetweenMethods, hblank, hstart, hvirtual]
    rw [Scanner.outputFrom, hstep]
    exact ih hrest
  | case5 out c line c' hpeek hblank hstart hvirtual =>
    obtain ⟨rest, rfl, hlines, -⟩ := h.of_peek_some hpeek
    have hstep : (scanner options).step (.betweenMethods owner) line =
        (scanner options).step .betweenClasses line := by
      simp [scanner, step, stepBetweenMethods, hblank, hstart, hvirtual]
    exact .stop hlines (by rw [Scanner.outputFrom, hstep, Scanner.outputFrom])

theorem reads_readClasses {c : LineCursor σ} {lines : List String} (h : c.Hands lines)
    (out : List Item) :
    Reads (readClasses options out c) out ((scanner options).outputFrom .betweenClasses lines)
      fun _ => [] := by
  fun_induction readClasses options out c generalizing lines with
  | case1 out c c' hstart =>
    obtain ⟨hnone, hnil⟩ := h.of_skipTo_none hstart
    refine .stop hnil ?_
    rw [outputFrom_betweenClasses, hnone]
  | case2 out c found c' hstart first r c'' =>
    rename_i hmethods
    obtain ⟨rest, hfound, hrest⟩ := h.of_skipTo_some hstart
    obtain ⟨hfirst, htail⟩ := hrest.advance
    obtain ⟨hnone, hnil⟩ := htail.of_skipTo_none hmethods
    rw [outputFrom_of_start options hfound, ← hfirst, outputFrom_beforeMethods, hnone]
    exact .put (.stop hnil rfl)
  | case3 out c found c' hstart first r found' c'' hmethods methods =>
    rename_i ih
    obtain ⟨rest, hfound, hrest⟩ := h.of_skipTo_some hstart
    obtain ⟨hfirst, htail⟩ := hrest.advance
    obtain ⟨rest', hfound', hrest'⟩ := htail.of_skipTo_some hmethods
    rw [outputFrom_of_start options hfound, ← hfirst, outputFrom_beforeMethods, hfound']
    exact .put ((reads_readMethods options r.1 hrest' _).andThen ih)

/-- A source that stays at its end puts out what its lines put out. -/
theorem readDump_eq_scan {source : σ} {lines : List String} (h : Hands source lines) :
    (readDump options source).1 = (scanner options).scan lines := by
  obtain ⟨items, rest, hout, -, hitems⟩ :=
    reads_readClasses options (LineCursor.hands_ofSource h) []
  rw [List.append_nil] at hout hitems
  rw [Scanner.scan_eq_outputFrom, readDump, hout, List.reverse_reverse]
  exact hitems.symm

end Readings

/-! ### The end -/

theorem ended_readDump (options : FilterOptions) (source : σ) :
    Ended source (readDump options source).2.source := by
  have hclasses {c : LineCursor σ} (h : c.Of source) (out : List Item) :
      Ended source (readClasses options out c).2.source := by
    fun_induction readClasses options out c with
    | case1 out c c' hstart => exact h.ended_of_skipTo hstart
    | case2 out c found c' hstart first r c'' hmethods =>
      have hfirst := (LineCursor.keeps_of source).of_skipTo hstart h
      exact ((LineCursor.keeps_of source).advance hfirst).ended_of_skipTo hmethods
    | case3 out c found c' hstart first r found' c'' hmethods methods ih =>
      have hfirst := (LineCursor.keeps_of source).of_skipTo hstart h
      have hrest := (LineCursor.keeps_of source).of_skipTo hmethods
        ((LineCursor.keeps_of source).advance hfirst)
      exact ih (readMethods_keeps (LineCursor.keeps_of source) options r.1 _ hrest)
  exact hclasses (LineCursor.of_ofSource source) []

end SnippetLens.Bytecode
