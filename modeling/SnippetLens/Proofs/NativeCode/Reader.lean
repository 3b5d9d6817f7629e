import SnippetLens.NativeCode.Reader
import SnippetLens.Proofs.Listing.Source
import SnippetLens.Proofs.NativeCode.Regions

/-!
Reading a native code dump from a source, and scanning its lines.

The lines that the scan waits through are passed over at once by the reading, and all others are
dispatched by both. So a source that stays at its end is condensed like its lines. Any source is
read until it has no line, also when a method has no line that heads its code.
-/

namespace SnippetLens.NativeCode

open Listing

variable {σ : Type} [LineSource σ] (options : FilterOptions)

theorem outputFrom_preamble (lines : List String) :
    (scanner options).outputFrom .preamble lines =
      match lines.dropWhile (!opensListing ·) with
      | [] => []
      | _ :: rest => (scanner options).outputFrom .outside rest :=
  Scanner.outputFrom_of_waits (scanner options) (fun _ => rfl) rfl lines

theorem outputFrom_beforeCode (lines : List String) :
    (scanner options).outputFrom .beforeCode lines =
      match lines.dropWhile (!headsCode ·) with
      | [] => []
      | _ :: rest => (scanner options).outputFrom .code rest :=
  Scanner.outputFrom_of_waits (scanner options) (fun _ => rfl) rfl lines

theorem step_eq_dispatch {region : Region} (hpreamble : region ≠ .preamble)
    (hbefore : region ≠ .beforeCode) (line : String) :
    step rules options region line = (dispatch rules options region line).getD (region, []) := by
  cases region with
  | preamble => exact absurd rfl hpreamble
  | beforeCode => exact absurd rfl hbefore
  | outside | classTop | code => rfl

theorem reads_readLines {region : Region} (hpreamble : region ≠ .preamble)
    (hbefore : region ≠ .beforeCode) {c : LineCursor σ} {lines : List String}
    (h : c.Hands lines) (out : List Item) :
    Reads (readLines options region out c) out ((scanner options).outputFrom region lines)
      fun _ => [] := by
  fun_induction readLines options region out c generalizing lines with
  | case1 region out c c' hadvance =>
    obtain ⟨rfl, hnil⟩ := h.of_advance_none hadvance
    exact .stop hnil rfl
  | case2 region out c line c' hadvance hdispatch ih =>
    obtain ⟨rest, rfl, hrest⟩ := h.of_advance_some hadvance
    have hstep := step_eq_dispatch options hpreamble hbefore line
    rw [hdispatch] at hstep
    rw [outputFrom_cons, hstep]
    exact ih hpreamble hbefore hrest
  | case3 region out c line c' hadvance items hdispatch c'' hskip =>
    obtain ⟨rest, rfl, hrest⟩ := h.of_advance_some hadvance
    obtain ⟨hnone, hnil⟩ := hrest.of_skipTo_none hskip
    have hstep := step_eq_dispatch options hpreamble hbefore line
    rw [hdispatch] at hstep
    rw [outputFrom_cons, hstep, Option.getD_some, outputFrom_beforeCode, hnone]
    exact .put (.stop hnil rfl)
  | case4 region out c line c' hadvance items hdispatch found c'' hskip ih =>
    obtain ⟨rest, rfl, hrest⟩ := h.of_advance_some hadvance
    obtain ⟨rest', hfound, hrest'⟩ := hrest.of_skipTo_some hskip
    have hstep := step_eq_dispatch options hpreamble hbefore line
    rw [hdispatch] at hstep
    rw [outputFrom_cons, hstep, Option.getD_some, outputFrom_beforeCode, hfound]
    exact .put (ih nofun nofun hrest')
  | case5 region out c line c' hadvance region' items hother hdispatch ih =>
    obtain ⟨rest, rfl, hrest⟩ := h.of_advance_some hadvance
    have hstep := step_eq_dispatch options hpreamble hbefore line
    have hafter := regionAfter_ne_preamble options hpreamble [line]
    rw [hdispatch] at hstep
    rw [regionAfter_cons, regionAfter_nil, hstep] at hafter
    rw [outputFrom_cons, hstep]
    exact .put (ih hafter hother hrest)

/-- A source that stays at its end puts out what its lines put out. -/
theorem readDump_eq_scan {source : σ} {lines : List String} (h : Hands source lines) :
    (readDump options source).1 = (scanner options).scan lines := by
  have hstart := LineCursor.hands_ofSource h
  have hscan : (scanner options).scan lines = (scanner options).outputFrom .preamble lines :=
    Scanner.scan_eq_outputFrom (scanner options) lines
  rw [hscan, outputFrom_preamble, readDump]
  split
  · rename_i c hskip
    rw [(hstart.of_skipTo_none hskip).1]
  · rename_i found c hskip
    obtain ⟨rest, hfound, hrest⟩ := hstart.of_skipTo_some hskip
    have houtside : Region.outside ≠ .preamble ∧ Region.outside ≠ .beforeCode := by decide
    obtain ⟨items, after, hout, -, hitems⟩ :=
      reads_readLines options houtside.1 houtside.2 hrest []
    rw [List.append_nil] at hout hitems
    rw [hfound]
    simp only [hout, List.reverse_reverse, hitems]

theorem ended_readDump (source : σ) : Ended source (readDump options source).2.source := by
  have hkeeps := LineCursor.keeps_of source
  have hlines {region : Region} {c : LineCursor σ} (h : c.Of source) (out : List Item) :
      Ended source (readLines options region out c).2.source := by
    fun_induction readLines options region out c with
    | case1 region out c c' hadvance => exact h.ended_of_advance hadvance
    | case2 region out c line c' hadvance hdispatch ih => exact ih (hkeeps.of_advance hadvance h)
    | case3 region out c line c' hadvance items hdispatch c'' hskip =>
      exact (hkeeps.of_advance hadvance h).ended_of_skipTo hskip
    | case4 region out c line c' hadvance items hdispatch found c'' hskip ih =>
      exact ih (hkeeps.of_skipTo hskip (hkeeps.of_advance hadvance h))
    | case5 region out c line c' hadvance region' items hother hdispatch ih =>
      exact ih (hkeeps.of_advance hadvance h)
  have hstart := LineCursor.of_ofSource source
  rw [readDump]
  split
  · rename_i c hskip
    exact hstart.ended_of_skipTo hskip
  · rename_i found c hskip
    exact hlines (hkeeps.of_skipTo hskip hstart) []

end SnippetLens.NativeCode
