import Mathlib.Data.List.Basic
import Mathlib.Logic.Function.Iterate
import SnippetLens.Proofs.Listing.Source

/-!
A cursor is a list of lines with an index.

A program looks at lines, consumes them and searches through them, and what it does next may depend
on all that it was told. It cannot tell the cursor from the list of the lines with the number of
those that were consumed for an index.

A line that is held back, or the end when that is held back, needs no case of its own here: it is
part of what a cursor has before it, as `Hands` says. The invariant is that these are the lines from
the index on.
-/

namespace SnippetLens.Listing.LineCursor

variable {σ τ : Type} [LineSource σ]

/-! ### Programs -/

/-- What can be asked of a cursor. The predicate of a search has a state, which all searches of a
program share. -/
inductive Step (τ : Type) where
  | peek
  | advance
  | skipPast (accepts : τ → String → Bool × τ)

structure Answer (τ : Type) where
  line : Option String
  /-- The lines that the predicate was asked about, in order. -/
  asked : List String
  state : τ
  position : Nat

inductive Program (τ : Type) where
  | stop
  | ask (step : Step τ) (next : Answer τ → Program τ)

def Step.consumed (a : Answer τ) : Step τ → List String
  | .peek => []
  | .advance => a.line.toList
  | .skipPast _ => a.asked

def consumed (told : List (Step τ × Answer τ)) : List String :=
  told.flatMap fun (step, a) => step.consumed a

/-! ### Predicates -/

section Predicates

variable (accepts : τ → String → Bool × τ)

def verdicts : τ → List String → List Bool
  | _, [] => []
  | t, line :: lines => (accepts t line).1 :: verdicts (accepts t line).2 lines

/-- The state of a predicate that was asked about one line after another. -/
def stateAfter (t : τ) (lines : List String) : τ :=
  lines.foldl (fun t line => (accepts t line).2) t

def recording (s : τ × List String) (line : String) : Bool × (τ × List String) :=
  let r := accepts s.1 line
  (r.1, r.2, s.2 ++ [line])

theorem verdicts_recording (s : τ × List String) (lines : List String) :
    verdicts (recording accepts) s lines = verdicts accepts s.1 lines := by
  induction lines generalizing s with
  | nil => rfl
  | cons line lines ih => simp [verdicts, ih, recording]

theorem stateAfter_recording (s : τ × List String) (lines : List String) :
    stateAfter (recording accepts) s lines = (stateAfter accepts s.1 lines, s.2 ++ lines) := by
  induction lines generalizing s with
  | nil => simp [stateAfter]
  | cons line lines ih => simpa [stateAfter, recording] using ih (recording accepts s line).2

/-- A search takes the lines up to the first one to which the predicate says yes, or all lines. -/
theorem Hands.skipPast {c : LineCursor σ} {lines : List String} (h : c.Hands lines) (t : τ) :
    let k := (verdicts accepts t lines).idxOf true
    let asked := lines.take (k + 1)
    let r := c.skipPast accepts t
    r.1 = lines[k]? ∧ r.2.1 = stateAfter accepts t asked ∧
      r.2.2.Hands (lines.drop (k + 1)) ∧ r.2.2.position = c.position + asked.length := by
  induction lines generalizing c t with
  | nil =>
    obtain ⟨hnone, hnil⟩ := h.advance
    have hposition : c.advance.2.position = c.position := by
      rw [c.position_advance, hnone]
      rfl
    rw [skipPast_of_none t (Prod.ext hnone rfl)]
    exact ⟨rfl, rfl, hnil, hposition⟩
  | cons line lines ih =>
    obtain ⟨hline, hlines⟩ := h.advance
    have hposition : c.advance.2.position = c.position + 1 := by
      rw [c.position_advance, hline]
      rfl
    rw [skipPast_of_some t (Prod.ext hline rfl)]
    cases haccepts : (accepts t line).1 with
    | true =>
      have hk : (verdicts accepts t (line :: lines)).idxOf true = 0 := by
        rw [verdicts, haccepts, List.idxOf_cons_self]
      rw [hk]
      exact ⟨rfl, rfl, hlines, hposition⟩
    | false =>
      have hk : (verdicts accepts t (line :: lines)).idxOf true =
          (verdicts accepts (accepts t line).2 lines).idxOf true + 1 := by
        rw [verdicts, haccepts, List.idxOf_cons_ne _ Bool.false_ne_true]
      obtain ⟨hfound, hstate, hrest, hcount⟩ := ih hlines (accepts t line).2
      rw [hk]
      refine ⟨hfound, hstate, hrest, hcount.trans ?_⟩
      rw [hposition, List.take_succ_cons, List.length_cons]
      omega

end Predicates

/-! ### Runs -/

/-- A step on a cursor. The lines that a search asks about are those that the same search writes down
with a recording predicate. -/
def Step.onCursor (t : τ) (c : LineCursor σ) : Step τ → Answer τ × LineCursor σ
  | .peek =>
    let r := c.peek
    (⟨r.1, [], t, r.2.position⟩, r.2)
  | .advance =>
    let r := c.advance
    (⟨r.1, [], t, r.2.position⟩, r.2)
  | .skipPast accepts =>
    let r := c.skipPast accepts t
    let recorded := c.skipPast (recording accepts) (t, [])
    (⟨r.1, recorded.2.1.2, r.2.1, r.2.2.position⟩, r.2.2)

/-- A step at an index of a list of lines. A search ends behind the first line to which the
predicate says yes, and asks it about no other lines than those up to there. -/
def Step.atIndex (lines : List String) (t : τ) (i : Nat) : Step τ → Answer τ
  | .peek => ⟨lines[i]?, [], t, i⟩
  | .advance => ⟨lines[i]?, [], t, min (i + 1) lines.length⟩
  | .skipPast accepts =>
    let k := (verdicts accepts t (lines.drop i)).idxOf true
    let asked := (lines.drop i).take (k + 1)
    ⟨lines[i + k]?, asked, stateAfter accepts t asked, min (i + k + 1) lines.length⟩

/-- What a program is told by a cursor, and the cursor after it. -/
def Program.onCursor (t : τ) (c : LineCursor σ) :
    Program τ → List (Step τ × Answer τ) × LineCursor σ
  | .stop => ([], c)
  | .ask step next =>
    let r := step.onCursor t c
    let rest := (next r.1).onCursor r.1.state r.2
    ((step, r.1) :: rest.1, rest.2)

/-- What a program is told by a list of lines, from an index on. -/
def Program.atIndex (lines : List String) (t : τ) (i : Nat) : Program τ → List (Step τ × Answer τ)
  | .stop => []
  | .ask step next =>
    let a := step.atIndex lines t i
    (step, a) :: (next a).atIndex lines a.state a.position

/-- Whether a cursor stands at an index of a list of lines: it has before it the lines from there
on, and has counted those up to there. -/
structure IsAt (lines : List String) (i : Nat) (c : LineCursor σ) : Prop where
  hands : c.Hands (lines.drop i)
  position : c.position = i
  le : i ≤ lines.length

theorem isAt_ofSource {source : σ} {lines : List String} (h : Listing.Hands source lines) :
    (ofSource source).IsAt lines 0 :=
  ⟨h, rfl, Nat.zero_le _⟩

variable {lines : List String} {i : Nat} {c : LineCursor σ}

theorem IsAt.peek (h : c.IsAt lines i) : c.peek.1 = lines[i]? ∧ c.peek.2.IsAt lines i := by
  obtain ⟨hline, hlines⟩ := h.hands.peek
  rw [List.head?_drop] at hline
  exact ⟨hline, hlines, c.position_peek.trans h.position, h.le⟩

theorem isAt_min {n : Nat} (hlines : c.Hands (lines.drop n))
    (hposition : c.position = min n lines.length) : c.IsAt lines (min n lines.length) := by
  have hdrop : lines.drop (min n lines.length) = lines.drop n :=
    List.drop_eq_drop_iff.2 (by simp)
  exact ⟨by rwa [hdrop], hposition, Nat.min_le_right ..⟩

theorem IsAt.advance (h : c.IsAt lines i) :
    c.advance.1 = lines[i]? ∧ c.advance.2.IsAt lines (min (i + 1) lines.length) := by
  obtain ⟨hline, hlines⟩ := h.hands.advance
  rw [List.head?_drop] at hline
  rw [List.tail_drop] at hlines
  have hposition := c.position_advance
  rw [hline, h.position] at hposition
  refine ⟨hline, isAt_min hlines (hposition.trans ?_)⟩
  have hle := h.le
  -- One line more is taken if and only if there is one at the index.
  have htake := congrArg List.length (List.take_add_one (l := lines) (i := i))
  simp only [List.length_append, List.length_take] at htake
  omega

theorem IsAt.skipPast (h : c.IsAt lines i) (accepts : τ → String → Bool × τ) (t : τ) :
    let k := (verdicts accepts t (lines.drop i)).idxOf true
    let asked := (lines.drop i).take (k + 1)
    let r := c.skipPast accepts t
    r.1 = lines[i + k]? ∧ r.2.1 = stateAfter accepts t asked ∧
      r.2.2.IsAt lines (min (i + k + 1) lines.length) := by
  obtain ⟨hfound, hstate, hlines, hposition⟩ := h.hands.skipPast accepts t
  rw [List.getElem?_drop] at hfound
  rw [List.drop_drop] at hlines
  rw [h.position, List.length_take, List.length_drop] at hposition
  have hle := h.le
  exact ⟨hfound, hstate, isAt_min hlines (hposition.trans (by omega))⟩

/-- The step lemma: a cursor at an index answers what the list says at that index, and stands at
the position it tells. -/
theorem IsAt.onCursor (h : c.IsAt lines i) (step : Step τ) (t : τ) :
    (step.onCursor t c).1 = step.atIndex lines t i ∧
      (step.onCursor t c).2.IsAt lines (step.atIndex lines t i).position := by
  cases step with
  | peek =>
    obtain ⟨hline, hafter⟩ := h.peek
    refine ⟨?_, hafter⟩
    rw [Step.onCursor, Step.atIndex, hline, hafter.position]
  | advance =>
    obtain ⟨hline, hafter⟩ := h.advance
    refine ⟨?_, hafter⟩
    rw [Step.onCursor, Step.atIndex, hline, hafter.position]
  | skipPast accepts =>
    obtain ⟨hline, hstate, hafter⟩ := h.skipPast accepts t
    have hrecorded := (h.skipPast (recording accepts) (t, [])).2.1
    rw [verdicts_recording, stateAfter_recording, List.nil_append] at hrecorded
    refine ⟨?_, hafter⟩
    rw [Step.onCursor, Step.atIndex, hline, hstate, hafter.position, hrecorded]

/-- A step consumes the lines from its index to the position it tells. -/
theorem take_append_consumed (lines : List String) (t : τ) (i : Nat) (step : Step τ) :
    lines.take i ++ step.consumed (step.atIndex lines t i) =
      lines.take (step.atIndex lines t i).position := by
  have htake (n : Nat) : lines.take (min n lines.length) = lines.take n :=
    List.take_eq_take_iff.2 (by simp)
  cases step with
  | peek => exact List.append_nil _
  | advance => exact (List.take_add_one ..).symm.trans (htake _).symm
  | skipPast accepts => exact (List.take_add ..).symm.trans (htake _).symm

/-- The run lemma: a cursor at an index tells a program what the list does from that index on, and
stands behind the lines that the program consumed. -/
theorem IsAt.exists_onCursor (h : c.IsAt lines i) (program : Program τ) (t : τ) :
    (program.onCursor t c).1 = program.atIndex lines t i ∧
      ∃ j, (program.onCursor t c).2.IsAt lines j ∧
        lines.take i ++ consumed (program.onCursor t c).1 = lines.take j := by
  induction program generalizing c i t with
  | stop => exact ⟨rfl, i, h, List.append_nil _⟩
  | ask step next ih =>
    obtain ⟨hanswer, hafter⟩ := h.onCursor step t
    have hstep := take_append_consumed lines t i step
    obtain ⟨htold, j, hj, hlines⟩ :=
      ih (step.atIndex lines t i) hafter (step.atIndex lines t i).state
    simp only [Program.onCursor, Program.atIndex, hanswer]
    refine ⟨by rw [htold], j, hj, ?_⟩
    rw [← hlines, ← hstep, List.append_assoc]
    rfl

theorem IsAt.iterate_peek (h : c.IsAt lines i) (n : Nat) :
    ((fun c : LineCursor σ => c.peek.2)^[n] c).IsAt lines i := by
  induction n generalizing c with
  | zero => exact h
  | succ n ih => exact ih h.peek.2

theorem atIndex_length (lines : List String) (t : τ) (step : Step τ) :
    step.atIndex lines t lines.length = ⟨none, [], t, lines.length⟩ := by
  cases step <;> simp [Step.atIndex, verdicts, stateAfter]

theorem mem_atIndex_length {t : τ} {program : Program τ} {step : Step τ} {a : Answer τ}
    (h : (step, a) ∈ program.atIndex lines t lines.length) : a = ⟨none, [], t, lines.length⟩ := by
  induction program with
  | stop => cases h
  | ask first next ih =>
    rw [Program.atIndex, atIndex_length] at h
    rcases List.mem_cons.1 h with hfirst | hlater
    · exact (Prod.mk.inj hfirst).2
    · exact ih _ hlater

/-! ### The lines ahead -/

def toList (c : LineCursor σ) : List String :=
  match _h : c.advance with
  | (none, _) => []
  | (some line, c') => line :: c'.toList
termination_by c.remaining
decreasing_by exact remaining_advance_lt _h

theorem Hands.toList (h : c.Hands lines) : c.toList = lines := by
  induction lines generalizing c with
  | nil =>
    rw [LineCursor.toList]
    split
    · rfl
    · rename_i hadvance
      obtain ⟨rest, hrest, -⟩ := h.of_advance_some hadvance
      cases hrest
  | cons line lines ih =>
    rw [LineCursor.toList]
    split
    · rename_i hadvance
      cases (h.of_advance_none hadvance).1
    · rename_i hadvance
      obtain ⟨rest, hrest, hlines⟩ := h.of_advance_some hadvance
      cases hrest
      rw [ih hlines]

/-- A program is told by a cursor over some lines what it is told by the list of these lines, read
from index zero on. The position is the number of lines that were consumed; these and the lines that
are still ahead are all lines; looking ahead any number of times changes nothing that is told later;
and when no line is ahead, no step finds one, asks a predicate or moves on.

A program may stop anywhere, so this holds at every moment of a run. -/
theorem onCursor_eq_atIndex {source : σ} (h : Listing.Hands source lines) (program : Program τ)
    (t : τ) :
    let r := program.onCursor t (ofSource source)
    r.1 = program.atIndex lines t 0 ∧
      r.2.position = (consumed r.1).length ∧
      consumed r.1 ++ r.2.toList = lines ∧
      (∀ (n : Nat) (later : Program τ) (t : τ),
        (later.onCursor t ((fun c : LineCursor σ => c.peek.2)^[n] r.2)).1 =
          (later.onCursor t r.2).1) ∧
      (r.2.toList = [] → ∀ (later : Program τ) (t : τ), ∀ told ∈ (later.onCursor t r.2).1,
        told.2 = ⟨none, [], t, r.2.position⟩) := by
  intro r
  obtain ⟨htold, j, hj, hconsumed⟩ := (isAt_ofSource h).exists_onCursor program t
  rw [List.take_zero, List.nil_append] at hconsumed
  have hahead : r.2.toList = lines.drop j := hj.hands.toList
  refine ⟨htold, ?_, ?_, ?_, ?_⟩
  · rw [hconsumed, List.length_take, Nat.min_eq_left hj.le]
    exact hj.position
  · rw [hconsumed, hahead]
    exact List.take_append_drop j lines
  · intro n later t
    rw [((hj.iterate_peek n).exists_onCursor later t).1, (hj.exists_onCursor later t).1]
  · intro hend later t told hmem
    rw [hahead, List.drop_eq_nil_iff] at hend
    obtain rfl := Nat.le_antisymm hj.le hend
    rw [(hj.exists_onCursor later t).1] at hmem
    rw [mem_atIndex_length hmem, hj.position]

/-- Looks at a line, searches for `Class #0`, and goes on behind it up to the end and over it. -/
def classProgram : Program Nat :=
  .ask .peek fun _ =>
    .ask (.skipPast fun asked line => (line = "Class #0", asked + 1)) fun found =>
      if found.line.isNone then .stop
      else
        .ask .advance fun _ =>
          .ask .peek fun _ =>
            .ask .advance fun _ =>
              .ask (.skipPast fun asked _ => (true, asked + 1)) fun _ => .stop

theorem onCursor_classProgram :
    let lines := ["x", "y", "Class #0", "next"]
    let r := classProgram.onCursor 0 (ofSource lines)
    Listing.Hands lines lines ∧
      r.1.map (·.2) = [⟨some "x", [], 0, 0⟩, ⟨some "Class #0", ["x", "y", "Class #0"], 3, 3⟩,
        ⟨some "next", [], 3, 4⟩, ⟨none, [], 3, 4⟩, ⟨none, [], 3, 4⟩, ⟨none, [], 3, 4⟩] ∧
      r.2.position = 4 ∧ r.2.toList = [] := by
  intro lines r
  have hlines : Listing.Hands lines lines := hands_list lines
  obtain ⟨htold, hposition, hconsumed, -⟩ := onCursor_eq_atIndex hlines classProgram 0
  have hall : consumed (classProgram.atIndex lines 0 0) = lines := by
    simp [lines, classProgram, Program.atIndex, Step.atIndex, verdicts, consumed, Step.consumed]
  rw [htold, hall] at hposition hconsumed
  refine ⟨hlines, ?_, hposition, List.append_cancel_left (hconsumed.trans (List.append_nil _).symm)⟩
  rw [htold]
  simp [lines, classProgram, Program.atIndex, Step.atIndex, verdicts, stateAfter]

end SnippetLens.Listing.LineCursor
