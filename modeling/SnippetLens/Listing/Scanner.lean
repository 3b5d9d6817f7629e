/-!
Scanners: what reads a listing once, front to back, and puts out items as it goes.

A scanner is a machine with a step per line and a last word at the end of the lines.
-/

namespace SnippetLens.Listing

/-- A machine that reads lines and puts out items. -/
structure Scanner (σ ω : Type) where
  start : σ
  /-- The state after a line, and what the line puts out. -/
  step : σ → String → σ × List ω
  /-- What the end of the lines puts out. -/
  finish : σ → List ω

namespace Scanner

variable {σ ω : Type}

def feed (m : Scanner σ ω) (s : σ × List ω) (line : String) : σ × List ω :=
  let r := m.step s.1 line
  (r.1, r.2.reverse ++ s.2)

/-- The items of a scan whose lines have ended. -/
def close (m : Scanner σ ω) (s : σ × List ω) : List ω :=
  ((m.finish s.1).reverse ++ s.2).reverse

def scan (m : Scanner σ ω) (lines : List String) : List ω :=
  m.close (lines.foldl m.feed (m.start, []))

def outputFrom (m : Scanner σ ω) : σ → List String → List ω
  | s, [] => m.finish s
  | s, line :: rest => (m.step s line).2 ++ outputFrom m (m.step s line).1 rest

theorem close_foldl_feed (m : Scanner σ ω) (s : σ) (out : List ω) (lines : List String) :
    m.close (lines.foldl m.feed (s, out)) = out.reverse ++ m.outputFrom s lines := by
  induction lines generalizing s out with
  | nil => simp [close, outputFrom]
  | cons line rest ih => simp [feed, outputFrom, ih]

/-- A scan puts out what its steps put out, one after another, and then its last word. -/
theorem scan_eq_outputFrom (m : Scanner σ ω) (lines : List String) :
    m.scan lines = m.outputFrom m.start lines := by
  simp [scan, close_foldl_feed]

/-- Lines that a state passes over leave no trace. -/
theorem outputFrom_append_of_passed (m : Scanner σ ω) {s : σ} {passed : List String}
    (h : ∀ line ∈ passed, m.step s line = (s, [])) (rest : List String) :
    m.outputFrom s (passed ++ rest) = m.outputFrom s rest := by
  induction passed with
  | nil => rfl
  | cons line passed ih =>
    have hline : m.step s line = (s, []) := h line (by simp)
    rw [List.cons_append, outputFrom, hline, List.nil_append]
    exact ih fun other hother => h other (by simp [hother])

/-- A state that waits for a line passes over the lines before it. -/
theorem outputFrom_of_waits (m : Scanner σ ω) {s s' : σ} {accepts : String → Bool}
    (hstep : ∀ line, m.step s line = if accepts line then (s', []) else (s, []))
    (hfinish : m.finish s = []) (lines : List String) :
    m.outputFrom s lines =
      match lines.dropWhile (!accepts ·) with
      | [] => []
      | _ :: rest => m.outputFrom s' rest := by
  induction lines with
  | nil => exact hfinish
  | cons line lines ih =>
    rw [outputFrom, hstep]
    cases haccepts : accepts line with
    | true => simp [haccepts]
    | false => simpa [haccepts] using ih

end Scanner

end SnippetLens.Listing
