import Mathlib.Data.List.DropRight
import SnippetLens.Proofs.Tool.Listening
import SnippetLens.Text.Search

/-!
What is left of a tool that is stopped at its time limit.

The limit can pass after any turn. All the lines of both streams that were read by then are in the
result, and the note of the limit stands behind them. A line that was only begun is not: it is in
the buffer of its stream, which is given up together with the call. So all that was read is there
if no line was begun, and else the bytes behind the last line feed are missing.
-/

namespace SnippetLens.Tool

open Text

namespace Capture

/-! ### The line that was begun -/

theorem begun_writeDown_self (c : Capture) (stream : Stream) :
    (c.writeDown stream).begun stream = [] := by
  by_cases hbegun : c.begun stream = []
  · rw [writeDown_of_nil hbegun, hbegun]
  · rw [writeDown_of_ne_nil hbegun, begun_writeLine_self]

theorem begun_writeDown_of_ne (c : Capture) {stream other : Stream} (h : other ≠ stream) :
    (c.writeDown stream).begun other = c.begun other := by
  by_cases hbegun : c.begun stream = []
  · rw [writeDown_of_nil hbegun]
  · rw [writeDown_of_ne_nil hbegun, begun_writeLine_of_ne c _ h]

theorem begun_receive_bytes_of_ne (c : Capture) {stream other : Stream} (h : other ≠ stream)
    (chunk : List UInt8) : (c.receive (.bytes stream chunk)).begun other = c.begun other := by
  induction chunk generalizing c with
  | nil => rfl
  | cons b chunk ih =>
    by_cases hb : b = lineFeed
    · rw [hb, receive_cons_lineFeed, ih, begun_writeLine_of_ne c _ h]
    · rw [receive_cons_of_ne c stream hb, ih, begun_begin_of_ne c _ h]

/-- What is begun on a stream is what was read of it behind the last line feed. -/
theorem begun_receive_bytes_self {c : Capture} {stream : Stream} {said : List UInt8}
    (h : (c.begun stream).reverse = said.rtakeWhile (· ≠ lineFeed)) (chunk : List UInt8) :
    ((c.receive (.bytes stream chunk)).begun stream).reverse =
      (said ++ chunk).rtakeWhile (· ≠ lineFeed) := by
  induction chunk generalizing c said with
  | nil => rwa [List.append_nil]
  | cons b chunk ih =>
    rw [List.append_cons]
    by_cases hb : b = lineFeed
    · rw [hb, receive_cons_lineFeed]
      exact ih (by simp)
    · rw [receive_cons_of_ne c stream hb]
      exact ih (by simp [hb, h])

theorem begun_ofArrivals_of_notMem {stream : Stream} {log : List Arrival}
    (h : .ended stream ∉ log) :
    ((ofArrivals log).begun stream).reverse =
      (heard stream log).rtakeWhile (· ≠ lineFeed) := by
  induction log using List.reverseRecOn with
  | nil => cases stream <;> rfl
  | append_singleton log arrival ih =>
    rw [List.mem_append, not_or, List.mem_singleton] at h
    have hlog := ih h.1
    rw [ofArrivals_append, List.foldl_cons, List.foldl_nil, heard_append]
    cases arrival with
    | bytes source chunk =>
      by_cases hsource : source = stream
      · subst hsource
        rw [begun_receive_bytes_self hlog]
        simp [heard]
      · rw [begun_receive_bytes_of_ne _ (Ne.symm hsource), hlog]
        simp [heard, hsource]
    | ended source =>
      have hsource : stream ≠ source := by rintro rfl; exact h.2 rfl
      rw [receive, begun_writeDown_of_ne _ hsource, hlog]
      simp [heard]

theorem begun_receive_of_silent {c : Capture} {stream : Stream} {arrival : Arrival}
    (h : heard stream [arrival] = []) (hbegun : c.begun stream = []) :
    (c.receive arrival).begun stream = [] := by
  cases arrival with
  | bytes source chunk =>
    by_cases hsource : source = stream
    · obtain rfl : chunk = [] := by simpa [heard, hsource] using h
      exact hbegun
    · rw [begun_receive_bytes_of_ne _ (Ne.symm hsource), hbegun]
  | ended source =>
    by_cases hsource : source = stream
    · rw [hsource, receive, begun_writeDown_self]
    · rw [receive, begun_writeDown_of_ne _ (Ne.symm hsource), hbegun]

theorem begun_foldl_of_silent {c : Capture} {stream : Stream} {arrivals : List Arrival}
    (h : heard stream arrivals = []) (hbegun : c.begun stream = []) :
    (arrivals.foldl receive c).begun stream = [] := by
  induction arrivals generalizing c with
  | nil => exact hbegun
  | cons arrival arrivals ih =>
    rw [← List.singleton_append, heard_append, List.append_eq_nil_iff] at h
    exact ih h.2 (begun_receive_of_silent h.1 hbegun)

theorem begun_foldl_of_ends (c : Capture) {stream : Stream} {arrivals : List Arrival}
    (h : Ends stream arrivals) : (arrivals.foldl receive c).begun stream = [] := by
  induction arrivals generalizing c with
  | nil => exact h.elim
  | cons arrival arrivals ih =>
    cases arrival with
    | bytes source chunk => exact ih _ h
    | ended source =>
      by_cases hsource : source = stream
      · subst hsource
        have hnone : heard source arrivals = [] := by simpa [Ends] using h
        rw [List.foldl_cons]
        exact begun_foldl_of_silent hnone (begun_writeDown_self c source)
      · exact ih _ (by simpa [Ends, hsource] using h)

/-! ### The lines that were written down -/

theorem tells_ended (c : Capture) (stream : Stream) :
    c.Tells [.ended stream]
      ((openLine (c.begun stream).reverse).map fun line => (stream, lineOfBytes line)) := by
  by_cases hbegun : c.begun stream = []
  · rw [hbegun]
    exact (Tells.nil c).fin hbegun
  · rw [openLine_of_ne_nil (List.reverse_ne_nil_iff.2 hbegun)]
    exact (Tells.nil _).finLine hbegun

/-- The lines of what was heard on a stream are those that were written down, and the one that was
begun. -/
theorem exists_written_begun (log : List Arrival) :
    ∃ written : List (Stream × String),
      (ofArrivals log).text = String.join (written.map (·.2 ++ "\n")) ∧
        ∀ stream, (.ended stream ∈ log → Ends stream log) →
          byteLines (heard stream log) =
            linesOf stream written ++
              (openLine ((ofArrivals log).begun stream).reverse).map lineOfBytes := by
  -- The end of the stream, told once more, would write down the line that was begun.
  obtain ⟨written, h⟩ := exists_tells_append {} log
  have htold : Tells {} log written := by simpa using h (.nil _)
  refine ⟨written, htold.text, fun stream hlog => ?_⟩
  have hends : Ends stream (log ++ [.ended stream]) := by
    by_cases hmem : .ended stream ∈ log
    · exact (hlog hmem).append rfl
    · exact ends_append_of_notMem hmem (by simp [Ends, heard])
  have hbegun : begun {} stream = [] := by cases stream <;> rfl
  have hlines := (h (tells_ended _ stream)).ended stream hends (by simp [hbegun])
  rw [hbegun, heard_append, linesOf_append, linesOf_map] at hlines
  simpa [heard, ofArrivals] using hlines.symm

end Capture

namespace Listener

/-! ### Stopped at any time -/

/-- Whenever a tool is stopped, the result has all the lines of what was heard on each stream, in
order, except for the one that was begun: the bytes behind the last line feed, until the end of the
stream was read. -/
theorem result_expired_run (coming : Stream → List (List UInt8)) (turns : List Turn)
    (limit : Nat) :
    let l := (start coming).run turns
    ∃ (said : Stream → List UInt8) (written : List (Stream × String)),
      l.capture.result (.expired limit) =
          ⟨-1, String.join (written.map (·.2 ++ "\n")) ++ "[timed out after " ++
            toString (limit / 1000) ++ "s]\n"⟩ ∧
        ∀ stream,
          said stream ++ (l.ears stream).arrived ++ (l.ears stream).coming.flatten =
              (coming stream).flatten ∧
            byteLines (said stream) =
              linesOf stream written ++
                (openLine (l.capture.begun stream).reverse).map lineOfBytes ∧
            ((l.ears stream).closed = false →
              (l.capture.begun stream).reverse =
                (said stream).rtakeWhile (· ≠ lineFeed)) ∧
            ((l.ears stream).attended = false → l.capture.begun stream = []) := by
  intro l
  obtain ⟨log, h⟩ := (Follows.start coming).run turns
  rw [List.nil_append] at h
  obtain ⟨written, htext, hlines⟩ := Capture.exists_written_begun log
  refine ⟨fun stream => heard stream log, written, ?_, fun stream => ?_⟩
  · rw [← htext, ← h.capture]
    rfl
  · have hear := h.ears stream
    rw [h.capture]
    refine ⟨hear.all, hlines stream fun hmem => (hear.ended hmem).1, fun hopen => ?_,
      fun hleft => ?_⟩
    · refine Capture.begun_ofArrivals_of_notMem fun hmem => ?_
      have hclosed := (hear.ended hmem).2.1
      exact Bool.false_ne_true (hopen.symm.trans hclosed)
    · exact Capture.begun_foldl_of_ends _ (hear.ended (hear.left hleft)).1

/-- A tool that says four bytes on its output, and then nothing more. -/
def fourBytes : Stream → List (List UInt8)
  | .output => [[116, 97, 105, 108]]
  | .errors => []

/-- They are all read, and none of them is in the result. -/
theorem result_expired_fourBytes :
    let l := (start fourBytes).run [.arrival .output, .call .output]
    (l.ears .output).arrived = [] ∧ (l.ears .output).coming = [] ∧
      byteLines (fourBytes .output).flatten = ["tail"] ∧
      l.capture.result (.expired 300) = ⟨-1, "[timed out after 0s]\n"⟩ ∧
      contains "tail" (l.capture.result (.expired 300)).output = false := by
  decide +kernel

end Listener

end SnippetLens.Tool
