import SnippetLens.Bytecode.Scan
import SnippetLens.Listing.Cursor

/-!
Condensing a bytecode dump straight from a source.

A dump is read part by part: its classes, the methods of a class, the body of a method. Each part
ends before the first line that it does not take, which is shown to the part around it, and the
last one at the end of the source. Items are put out last first.

A name that is asked for at the end of the source is unknown, like one that its line does not tell.
The source is asked again behind its end then.
-/

namespace SnippetLens.Bytecode

open Listing

variable {σ : Type} [LineSource σ]

def readBody (owner : Owner) (out : List Item) (c : LineCursor σ) : List Item × LineCursor σ :=
  match _h : c.peek with
  | (none, c') => (out, c')
  | (some line, c') =>
    match BodyLine.ofLine line with
    | .instruction text => readBody owner (owner.puts [.instruction text] ++ out) c'.advance.2
    | .metadata => readBody owner out c'.advance.2
    | .boundary => (out, c')
termination_by c.remaining
decreasing_by all_goals exact LineCursor.remaining_advance_peek_lt _h

def readMethod (owner : Owner) (out : List Item) (c : LineCursor σ) :
    List Item × LineCursor σ :=
  let first := c.advance
  let second := first.2.advance
  let name := (first.1.bind methodName?).getD unknownName
  let type := (second.1.bind methodType?).getD unknownName
  let r := readBody owner (owner.puts [.method name type owner.name] ++ out) second.2
  (owner.puts [.gap] ++ r.1, r.2)

theorem readBody_keeps {P : LineCursor σ → Prop} (hP : LineCursor.Keeps P) (owner : Owner)
    (out : List Item) {c : LineCursor σ} (h : P c) : P (readBody owner out c).2 := by
  fun_induction readBody owner out c with
  | case1 out c c' hpeek => exact hP.of_peek hpeek h
  | case2 out c line c' hpeek text hline ih => exact ih (hP.advance (hP.of_peek hpeek h))
  | case3 out c line c' hpeek hline ih => exact ih (hP.advance (hP.of_peek hpeek h))
  | case4 out c line c' hpeek hline => exact hP.of_peek hpeek h

theorem readMethod_keeps {P : LineCursor σ → Prop} (hP : LineCursor.Keeps P) (owner : Owner)
    (out : List Item) {c : LineCursor σ} (h : P c) : P (readMethod owner out c).2 :=
  readBody_keeps hP owner _ (hP.advance (hP.advance h))

def readMethods (options : FilterOptions) (owner : Owner) (out : List Item)
    (c : LineCursor σ) : List Item × LineCursor σ :=
  match _h : c.peek with
  | (none, c') => (out, c')
  | (some line, c') =>
    if Text.allBlank line then readMethods options owner out c'.advance.2
    else if isMethodStart line then
      let r := readMethod owner out c'.advance.2
      readMethods options owner r.1 r.2
    else if options.virtualMethods && headsVirtualMethods line then
      readMethods options owner out c'.advance.2
    else (out, c')
termination_by c.remaining
decreasing_by
  · exact LineCursor.remaining_advance_peek_lt _h
  · exact Nat.lt_of_le_of_lt
      (readMethod_keeps (LineCursor.keeps_remaining_le _) owner out (Nat.le_refl _))
      (LineCursor.remaining_advance_peek_lt _h)
  · exact LineCursor.remaining_advance_peek_lt _h

theorem readMethods_keeps {P : LineCursor σ → Prop} (hP : LineCursor.Keeps P)
    (options : FilterOptions) (owner : Owner) (out : List Item) {c : LineCursor σ} (h : P c) :
    P (readMethods options owner out c).2 := by
  fun_induction readMethods options owner out c with
  | case1 out c c' hpeek => exact hP.of_peek hpeek h
  | case2 out c line c' hpeek hblank ih => exact ih (hP.advance (hP.of_peek hpeek h))
  | case3 out c line c' hpeek hblank hstart r ih =>
    exact ih (readMethod_keeps hP owner out (hP.advance (hP.of_peek hpeek h)))
  | case4 out c line c' hpeek hblank hstart hvirtual ih =>
    exact ih (hP.advance (hP.of_peek hpeek h))
  | case5 out c line c' hpeek hblank hstart hvirtual => exact hP.of_peek hpeek h

def openNamed (options : FilterOptions) (line : Option String) : Owner × List Item :=
  openClass options (((line.bind classDescriptor?).map dotted).getD unknownName)

def readClasses (options : FilterOptions) (out : List Item) (c : LineCursor σ) :
    List Item × LineCursor σ :=
  match _h : c.skipTo isClassStart with
  | (none, c') => (out, c')
  | (some _, c') =>
    let first := c'.advance
    let r := openNamed options first.1
    match _h' : first.2.skipTo headsDirectMethods with
    | (none, c'') => (r.2.reverse ++ out, c'')
    | (some _, c'') =>
      let methods := readMethods options r.1 (r.2.reverse ++ out) c''
      readClasses options methods.1 methods.2
termination_by c.remaining
decreasing_by
  have hstart := LineCursor.remaining_skipTo_lt _h
  have hmethods := LineCursor.remaining_skipTo_lt _h'
  have hname : first.2.remaining ≤ c'.remaining := c'.remaining_advance_le
  refine Nat.lt_of_le_of_lt
    (readMethods_keeps (LineCursor.keeps_remaining_le c''.remaining) options _ _ (Nat.le_refl _)) ?_
  omega

def readDump (options : FilterOptions) (source : σ) : List Item × LineCursor σ :=
  let r := readClasses options [] (.ofSource source)
  (r.1.reverse, r.2)

end SnippetLens.Bytecode
