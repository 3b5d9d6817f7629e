import SnippetLens.Proofs.Text.Whole
import SnippetLens.Proofs.Tool.Listening

/-!
What is written down of a tool that says nothing on its error stream.

Its lines are decoded one by one, as they come. However its bytes are cut into reads, and wherever
a character is no UTF-8 or is cut off, this is the text that all the bytes give when they are decoded
at once, with its last line ended and its line ends made plain.
-/

namespace SnippetLens.Tool

open Text

def wholeText (bytes : List UInt8) : String :=
  String.ofList (plainEnds (Utf8.lenient (endLastByteLine bytes)).toList)

theorem Capture.text_ofArrivals_eq_wholeText {bytes : List UInt8} (hbytes : bytes ≠ [])
    {arrivals : List Arrival} (hends : ∀ stream, Ends stream arrivals)
    (houtput : heard .output arrivals = bytes) (herrors : heard .errors arrivals = []) :
    (ofArrivals arrivals).text = wholeText bytes := by
  rw [text_ofArrivals_of_silent hends herrors, houtput, join_byteLines_eq hbytes, wholeText]

namespace Listener

/-- Someone who has listened to both streams to their ends has what some arrivals of all their bytes
give. -/
theorem exists_arrivals_of_isOver {coming : Stream → List (List UInt8)} {turns : List Turn}
    (hover : ((start coming).run turns).IsOver) :
    ∃ arrivals, ((start coming).run turns).capture = Capture.ofArrivals arrivals ∧
      ∀ stream, Ends stream arrivals ∧ heard stream arrivals = (coming stream).flatten := by
  obtain ⟨log, h⟩ := (Follows.start coming).run turns
  rw [List.nil_append] at h
  refine ⟨log, h.capture, fun stream => ?_⟩
  have hear := h.ears stream
  obtain ⟨hends, hclosed, harrived⟩ := hear.ended (hear.left (hover stream))
  have hall := hear.all
  rw [harrived, hear.closed hclosed, List.append_nil, List.flatten_nil, List.append_nil] at hall
  exact ⟨hends, hall⟩

end Listener

/-- The result of a tool that has said some bytes on its output, and nothing else, has their text:
however they arrived, and whenever the calls on the two streams went on. -/
theorem output_eq_wholeText {bytes : List UInt8} (hbytes : bytes ≠ []) {ending : Ending}
    (hending : (∃ code, ending = .exited code) ∨ ending = .signalled) :
    (∀ arrivals, (∀ stream, Ends stream arrivals) → heard .output arrivals = bytes →
      heard .errors arrivals = [] →
        ((Capture.ofArrivals arrivals).result ending).output = wholeText bytes) ∧
    (∀ coming turns, (coming .output).flatten = bytes → (coming .errors).flatten = [] →
      ((Listener.start coming).run turns).IsOver →
        (((Listener.start coming).run turns).capture.result ending).output = wholeText bytes) := by
  have hresult : ∀ c : Capture, (c.result ending).output = c.text := by
    intro c
    rcases hending with ⟨code, rfl⟩ | rfl <;> rfl
  constructor
  · intro arrivals hends houtput herrors
    rw [hresult, Capture.text_ofArrivals_eq_wholeText hbytes hends houtput herrors]
  · intro coming turns houtput herrors hover
    obtain ⟨arrivals, hcapture, hstreams⟩ := Listener.exists_arrivals_of_isOver hover
    rw [hresult, hcapture]
    refine Capture.text_ofArrivals_eq_wholeText hbytes (fun stream => (hstreams stream).1) ?_ ?_
    · rw [(hstreams .output).2, houtput]
    · rw [(hstreams .errors).2, herrors]

/-! ### A character that is cut off before a line end, and one that is cut by the reads -/

def brokenBytes : List UInt8 := [226, 130, 13, 10, 195, 169, 255, 13]

def brokenChunks : Stream → List (List UInt8)
  | .output => [[226], [130, 13], [10, 195], [169, 255, 13]]
  | .errors => []

/-- Each chunk is read as soon as it has arrived; the error stream ends in between. -/
def chunkByChunk : List Turn :=
  [.arrival .output, .call .output, .arrival .output, .call .output, .arrival .errors,
    .call .errors, .arrival .output, .call .output, .call .output, .arrival .output,
    .call .output, .arrival .output, .call .output, .call .output]

theorem output_brokenBytes :
    brokenBytes ≠ [] ∧ (brokenChunks .output).flatten = brokenBytes ∧
      (brokenChunks .errors).flatten = [] ∧
      ((Listener.start brokenChunks).run chunkByChunk).IsOver ∧
      wholeText brokenBytes = "\uFFFD\né\uFFFD\n" ∧
      (((Listener.start brokenChunks).run chunkByChunk).capture.result (.exited 0)).output =
        wholeText brokenBytes := by
  have hbytes : brokenBytes ≠ [] := by decide
  have houtput : (brokenChunks .output).flatten = brokenBytes := rfl
  have hover : ((Listener.start brokenChunks).run chunkByChunk).IsOver := by
    rintro (_ | _) <;> rfl
  exact ⟨hbytes, houtput, rfl, hover, by decide +kernel,
    (output_eq_wholeText hbytes (.inl ⟨0, rfl⟩)).2 _ _ houtput rfl hover⟩

end SnippetLens.Tool
