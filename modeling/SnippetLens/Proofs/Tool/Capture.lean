import SnippetLens.Proofs.Text.Lines
import SnippetLens.Tool.Capture

/-!
What is written down of a tool is a merge of the lines of its two streams.

Every line is written down with the stream that it comes from, and the lines of a stream that has
ended are the lines of its bytes. A capture is followed from any state on: the line that was begun
on a stream stands before the bytes that are still to come from it.
-/

namespace SnippetLens.Tool

open Text

/-! ### What comes from a stream -/

def heard (stream : Stream) : List Arrival → List UInt8
  | [] => []
  | .bytes source chunk :: arrivals =>
    (if source = stream then chunk else []) ++ heard stream arrivals
  | .ended _ :: arrivals => heard stream arrivals

/-- Whether a stream ends: its end is told, and nothing comes from it after that. -/
def Ends (stream : Stream) : List Arrival → Prop
  | [] => False
  | .bytes _ _ :: arrivals => Ends stream arrivals
  | .ended source :: arrivals =>
    if source = stream then heard stream arrivals = [] else Ends stream arrivals

theorem heard_append (stream : Stream) (front back : List Arrival) :
    heard stream (front ++ back) = heard stream front ++ heard stream back := by
  induction front with
  | nil => rfl
  | cons arrival front ih => cases arrival <;> simp [heard, ih]

theorem Ends.append {stream : Stream} {front back : List Arrival} (h : Ends stream front)
    (hback : heard stream back = []) : Ends stream (front ++ back) := by
  induction front with
  | nil => exact h.elim
  | cons arrival front ih =>
    cases arrival with
    | bytes source chunk => exact ih h
    | ended source =>
      simp only [List.cons_append, Ends] at h ⊢
      split_ifs at h ⊢
      · rw [heard_append, h, hback, List.append_nil]
      · exact ih h

theorem ends_append_of_notMem {stream : Stream} {front back : List Arrival}
    (h : .ended stream ∉ front) (hback : Ends stream back) : Ends stream (front ++ back) := by
  induction front with
  | nil => exact hback
  | cons arrival front ih =>
    obtain ⟨hne, hfront⟩ := List.ne_and_not_mem_of_not_mem_cons h
    cases arrival with
    | bytes source chunk => exact ih hfront
    | ended source =>
      have hsource : source ≠ stream := by rintro rfl; exact hne rfl
      simpa [Ends, hsource] using ih hfront

def linesOf (stream : Stream) (written : List (Stream × String)) : List String :=
  (written.filter (·.1 = stream)).map (·.2)

@[simp] theorem linesOf_cons_self (stream : Stream) (line : String)
    (written : List (Stream × String)) :
    linesOf stream ((stream, line) :: written) = line :: linesOf stream written := by
  simp [linesOf]

theorem linesOf_cons_of_ne {stream source : Stream} (h : source ≠ stream) (line : String)
    (written : List (Stream × String)) :
    linesOf stream ((source, line) :: written) = linesOf stream written := by
  simp [linesOf, h]

theorem linesOf_append (stream : Stream) (front back : List (Stream × String)) :
    linesOf stream (front ++ back) = linesOf stream front ++ linesOf stream back := by
  simp [linesOf]

theorem linesOf_map {α : Type} (stream : Stream) (f : α → String) (lines : List α) :
    linesOf stream (lines.map fun line => (stream, f line)) = lines.map f := by
  simp [linesOf, List.filter_map, Function.comp_def]

namespace Capture

/-! ### One step of a capture -/

@[simp] theorem lines_begin (c : Capture) (line : List UInt8) (stream : Stream) :
    (c.begin line stream).lines = c.lines := by
  cases stream <;> rfl

/-- The capture with a line of a stream written down, and nothing begun on the stream. -/
def writeLine (c : Capture) (stream : Stream) (line : List UInt8) : Capture :=
  { c.begin [] stream with lines := lineOfBytes line :: c.lines }

theorem lines_writeLine (c : Capture) (stream : Stream) (line : List UInt8) :
    (c.writeLine stream line).lines = lineOfBytes line :: c.lines := rfl

@[simp] theorem begun_writeLine_self (c : Capture) (stream : Stream) (line : List UInt8) :
    (c.writeLine stream line).begun stream = [] := by
  cases stream <;> rfl

theorem begun_writeLine_of_ne (c : Capture) (line : List UInt8) {stream other : Stream}
    (h : other ≠ stream) : (c.writeLine stream line).begun other = c.begun other := by
  rw [← begun_begin_of_ne c [] h]
  cases other <;> rfl

theorem writeDown_of_nil {c : Capture} {stream : Stream} (h : c.begun stream = []) :
    c.writeDown stream = c := by
  rw [writeDown, h]

theorem writeDown_of_ne_nil {c : Capture} {stream : Stream} (h : c.begun stream ≠ []) :
    c.writeDown stream = c.writeLine stream (c.begun stream).reverse := by
  rw [writeDown]
  split
  · contradiction
  · rfl

theorem writeDown_begin {c : Capture} {stream : Stream} {line : List UInt8} (h : line ≠ []) :
    (c.begin line stream).writeDown stream = c.writeLine stream line.reverse := by
  have hbegun : (c.begin line stream).begun stream ≠ [] := by rwa [begun_begin_self]
  rw [writeDown_of_ne_nil hbegun, begun_begin_self]
  cases stream <;> rfl

theorem hear_of_ne (c : Capture) (stream : Stream) {b : UInt8} (h : b ≠ lineFeed) :
    hear stream c b = c.begin (b :: c.begun stream) stream :=
  if_neg h

theorem hear_lineFeed (c : Capture) (stream : Stream) :
    hear stream c lineFeed = c.writeLine stream ((c.begun stream).reverse ++ [lineFeed]) := by
  rw [hear, if_pos rfl, writeDown_begin (List.cons_ne_nil _ _), List.reverse_cons]

theorem receive_cons_of_ne (c : Capture) (stream : Stream) {b : UInt8} (h : b ≠ lineFeed)
    (chunk : List UInt8) : c.receive (.bytes stream (b :: chunk)) =
      (c.begin (b :: c.begun stream) stream).receive (.bytes stream chunk) := by
  rw [receive, List.foldl_cons, hear_of_ne c stream h, receive]

theorem receive_cons_lineFeed (c : Capture) (stream : Stream) (chunk : List UInt8) :
    c.receive (.bytes stream (lineFeed :: chunk)) =
      (c.writeLine stream ((c.begun stream).reverse ++ [lineFeed])).receive
        (.bytes stream chunk) := by
  rw [receive, List.foldl_cons, hear_lineFeed, receive]

/-- Lines that are written down from a state on, in the order of the arrivals. -/
structure Tells (c : Capture) (arrivals : List Arrival) (written : List (Stream × String)) :
    Prop where
  lines : (arrivals.foldl receive c).lines = (written.map (·.2)).reverse ++ c.lines
  ended : ∀ stream, Ends stream arrivals → lineFeed ∉ c.begun stream →
    linesOf stream written = byteLines ((c.begun stream).reverse ++ heard stream arrivals)
  silent : ∀ stream, heard stream arrivals = [] → c.begun stream = [] → linesOf stream written = []

namespace Tells

variable {c : Capture} {stream : Stream} {arrivals : List Arrival}
  {written : List (Stream × String)}

theorem nil (c : Capture) : c.Tells [] [] where
  lines := rfl
  ended _ h := h.elim
  silent _ _ _ := rfl

theorem nothing (h : c.Tells arrivals written) :
    c.Tells (.bytes stream [] :: arrivals) written where
  lines := h.lines
  ended source hends hbegun := by simpa [heard] using h.ended source hends hbegun
  silent source hheard hbegun := h.silent source (by simpa [heard] using hheard) hbegun

theorem byte {b : UInt8} {chunk : List UInt8} (hb : b ≠ lineFeed)
    (h : (c.begin (b :: c.begun stream) stream).Tells (.bytes stream chunk :: arrivals) written) :
    c.Tells (.bytes stream (b :: chunk) :: arrivals) written where
  lines := by
    rw [List.foldl_cons, receive_cons_of_ne c stream hb, ← List.foldl_cons, h.lines, lines_begin]
  ended source hends hbegun := by
    by_cases hsource : source = stream
    · subst hsource
      have hline : lineFeed ∉ b :: c.begun source := by simp [hbegun, hb.symm]
      simpa [heard] using h.ended source hends (by simpa using hline)
    · have hother := begun_begin_of_ne c (b :: c.begun stream) hsource
      simpa [heard, Ne.symm hsource, hother] using h.ended source hends (by simpa [hother])
  silent source hheard hbegun := by
    by_cases hsource : source = stream
    · simp [heard, hsource] at hheard
    · have hother := begun_begin_of_ne c (b :: c.begun stream) hsource
      have hrest : heard source arrivals = [] := by simpa [heard, Ne.symm hsource] using hheard
      exact h.silent source (by simp [heard, Ne.symm hsource, hrest]) (by rw [hother, hbegun])

theorem feed {chunk : List UInt8}
    (h : (c.writeLine stream ((c.begun stream).reverse ++ [lineFeed])).Tells
      (.bytes stream chunk :: arrivals) written) :
    c.Tells (.bytes stream (lineFeed :: chunk) :: arrivals)
      ((stream, lineOfBytes ((c.begun stream).reverse ++ [lineFeed])) :: written) where
  lines := by
    rw [List.foldl_cons, receive_cons_lineFeed, ← List.foldl_cons, h.lines, lines_writeLine]
    simp
  ended source hends hbegun := by
    by_cases hsource : source = stream
    · subst hsource
      have hrest := h.ended source hends (by simp)
      have hpieces := pieces_append_cons (List.mem_reverse.not.2 hbegun)
        (heard source (.bytes source chunk :: arrivals))
      simp only [heard, if_true, List.cons_append] at hpieces ⊢
      simpa [byteLines, hpieces, heard] using hrest
    · have hother := begun_writeLine_of_ne c ((c.begun stream).reverse ++ [lineFeed]) hsource
      rw [linesOf_cons_of_ne (Ne.symm hsource)]
      simpa [heard, Ne.symm hsource, hother] using h.ended source hends (by simpa [hother])
  silent source hheard hbegun := by
    by_cases hsource : source = stream
    · simp [heard, hsource] at hheard
    · have hother := begun_writeLine_of_ne c ((c.begun stream).reverse ++ [lineFeed]) hsource
      have hrest : heard source arrivals = [] := by simpa [heard, Ne.symm hsource] using hheard
      rw [linesOf_cons_of_ne (Ne.symm hsource)]
      exact h.silent source (by simp [heard, Ne.symm hsource, hrest]) (by rw [hother, hbegun])

/-- The end of a stream leaves everything as it is when no line was begun on it. -/
theorem fin (h : c.Tells arrivals written) (hbegun : c.begun stream = []) :
    c.Tells (.ended stream :: arrivals) written where
  lines := by
    rw [List.foldl_cons, receive, writeDown_of_nil hbegun, h.lines]
  ended source hends hfeed := by
    by_cases hsource : source = stream
    · subst hsource
      have hnone : heard source arrivals = [] := by simpa [Ends] using hends
      rw [h.silent source hnone hbegun, hbegun, heard, hnone]
      rfl
    · have hrest : Ends source arrivals := by simpa [Ends, Ne.symm hsource] using hends
      exact h.ended source hrest hfeed
  silent source hheard hsilent := h.silent source hheard hsilent

/-- The end of a stream writes down the line that was begun on it. -/
theorem finLine (h : (c.writeLine stream (c.begun stream).reverse).Tells arrivals written)
    (hbegun : c.begun stream ≠ []) :
    c.Tells (.ended stream :: arrivals)
      ((stream, lineOfBytes (c.begun stream).reverse) :: written) where
  lines := by
    rw [List.foldl_cons, receive, writeDown_of_ne_nil hbegun, h.lines, lines_writeLine]
    simp
  ended source hends hfeed := by
    by_cases hsource : source = stream
    · subst hsource
      have hnone : heard source arrivals = [] := by simpa [Ends] using hends
      have hsilent := h.silent source hnone (by simp)
      have hpieces := piecesFrom_of_notMem (List.mem_reverse.not.2 hfeed) []
      have hopen := openLine_of_ne_nil (List.reverse_ne_nil_iff.2 hbegun)
      rw [linesOf_cons_self, hsilent, heard, hnone, List.append_nil]
      simp [byteLines, pieces, hpieces, hopen]
    · have hrest : Ends source arrivals := by simpa [Ends, Ne.symm hsource] using hends
      have hother := begun_writeLine_of_ne c (c.begun stream).reverse hsource
      rw [linesOf_cons_of_ne (Ne.symm hsource), h.ended source hrest (by rwa [hother]), hother]
      rfl
  silent source hheard hsilent := by
    have hsource : source ≠ stream := by
      rintro rfl
      exact hbegun hsilent
    have hother := begun_writeLine_of_ne c (c.begun stream).reverse hsource
    rw [linesOf_cons_of_ne (Ne.symm hsource)]
    exact h.silent source hheard (by rw [hother, hsilent])

end Tells

/-- Lines that are written down later stand behind those that are there. -/
theorem exists_tells_append (c : Capture) (front : List Arrival) :
    ∃ written, ∀ {back later}, (front.foldl receive c).Tells back later →
      c.Tells (front ++ back) (written ++ later) := by
  -- Along the arrivals, and along the bytes of a chunk; each of them leads to another capture.
  induction front generalizing c with
  | nil => exact ⟨[], id⟩
  | cons arrival front ih =>
    cases arrival with
    | bytes stream chunk =>
      induction chunk generalizing c with
      | nil =>
        obtain ⟨written, h⟩ := ih c
        exact ⟨written, fun hback => (h hback).nothing⟩
      | cons b chunk ihchunk =>
        by_cases hb : b = lineFeed
        · subst hb
          obtain ⟨written, h⟩ :=
            ihchunk (c.writeLine stream ((c.begun stream).reverse ++ [lineFeed]))
          refine ⟨(stream, lineOfBytes ((c.begun stream).reverse ++ [lineFeed])) :: written, ?_⟩
          intro back later hback
          rw [List.foldl_cons, receive_cons_lineFeed, ← List.foldl_cons] at hback
          exact (h hback).feed
        · obtain ⟨written, h⟩ := ihchunk (c.begin (b :: c.begun stream) stream)
          refine ⟨written, fun {back later} hback => ?_⟩
          rw [List.foldl_cons, receive_cons_of_ne c stream hb, ← List.foldl_cons] at hback
          exact (h hback).byte hb
    | ended stream =>
      by_cases hbegun : c.begun stream = []
      · obtain ⟨written, h⟩ := ih c
        refine ⟨written, fun {back later} hback => ?_⟩
        rw [List.foldl_cons, receive, writeDown_of_nil hbegun] at hback
        exact (h hback).fin hbegun
      · obtain ⟨written, h⟩ := ih (c.writeLine stream (c.begun stream).reverse)
        refine ⟨(stream, lineOfBytes (c.begun stream).reverse) :: written, ?_⟩
        intro back later hback
        rw [List.foldl_cons, receive, writeDown_of_ne_nil hbegun] at hback
        exact (h hback).finLine hbegun

theorem exists_tells (c : Capture) (arrivals : List Arrival) :
    ∃ written, c.Tells arrivals written := by
  obtain ⟨written, h⟩ := exists_tells_append c arrivals
  refine ⟨written, ?_⟩
  simpa using h (.nil _)

theorem Tells.text {arrivals : List Arrival} {written : List (Stream × String)}
    (h : Tells {} arrivals written) :
    (ofArrivals arrivals).text = String.join (written.map (·.2 ++ "\n")) := by
  have hlines : (ofArrivals arrivals).lines = (written.map (·.2)).reverse := by
    rw [ofArrivals, h.lines, List.append_nil]
  rw [Capture.text, hlines, List.reverse_reverse, List.map_map]
  rfl

/-- The text is that of some lines of both streams, and those of a stream that ended are the lines
of its bytes. -/
theorem exists_written_ofArrivals (arrivals : List Arrival) :
    ∃ written : List (Stream × String),
      (ofArrivals arrivals).text = String.join (written.map (·.2 ++ "\n")) ∧
        ∀ stream, Ends stream arrivals →
          linesOf stream written = byteLines (heard stream arrivals) := by
  obtain ⟨written, h⟩ := exists_tells {} arrivals
  refine ⟨written, h.text, fun stream hends => ?_⟩
  have hbegun : begun {} stream = [] := by cases stream <;> rfl
  simpa [hbegun] using h.ended stream hends (by simp [hbegun])

theorem text_ofArrivals_of_silent {arrivals : List Arrival}
    (hends : ∀ stream, Ends stream arrivals) (herrors : heard .errors arrivals = []) :
    (ofArrivals arrivals).text =
      String.join ((byteLines (heard .output arrivals)).map (· ++ "\n")) := by
  obtain ⟨written, htext, hlines⟩ := exists_written_ofArrivals arrivals
  have hnone : linesOf .errors written = [] := by
    rw [hlines .errors (hends .errors), herrors]
    rfl
  have hsource : ∀ entry ∈ written, entry.1 = .output := by
    rintro ⟨stream, line⟩ hentry
    cases stream with
    | output => rfl
    | errors =>
      simp only [linesOf, List.map_eq_nil_iff, List.filter_eq_nil_iff] at hnone
      simpa using hnone _ hentry
  have hall : linesOf .output written = written.map (·.2) := by
    rw [linesOf, List.filter_eq_self.2 (by simpa using hsource)]
  rw [htext, ← hlines .output (hends .output), hall, List.map_map]
  rfl

/-! ### The text as lines -/

theorem text_eq_of_lines {c c' : Capture} {written : List String}
    (h : c'.lines = written.reverse ++ c.lines) :
    c'.text = c.text ++ String.join (written.map (· ++ "\n")) := by
  apply String.toList_injective
  simp [text, h]

theorem eq_of_getLast?_text (c : Capture) (last : Char) (h : c.text.toList.getLast? = some last) :
    last = '\n' := by
  cases hlines : c.lines with
  | nil => simp [text, hlines] at h
  | cons line lines =>
    have hc : c.lines = [line].reverse ++ { c with lines }.lines := hlines
    simp only [text_eq_of_lines hc] at h
    simpa using h.symm

/-- Arrivals that come later write down more lines, behind those that are there. -/
theorem exists_lines_ofArrivals_append (front back : List Arrival) : ∃ later,
    Text.lines (ofArrivals (front ++ back)).text =
      Text.lines (ofArrivals front).text ++ later := by
  obtain ⟨written, htells⟩ := exists_tells (ofArrivals front) back
  have hlines : (ofArrivals (front ++ back)).lines =
      (written.map (·.2)).reverse ++ (ofArrivals front).lines := by
    rw [← htells.lines, ofArrivals, ofArrivals, List.foldl_append]
  refine ⟨Text.lines (String.join ((written.map (·.2)).map (· ++ "\n"))), ?_⟩
  rw [text_eq_of_lines hlines, lines_append (eq_of_getLast?_text _)]

end Capture

end SnippetLens.Tool
