import Mathlib.Logic.Relation
import SnippetLens.Listing.Cursor

/-!
What a cursor does to its source, and what it hands on of it.

A source that stays at its end hands out a list of lines, and a cursor over it has the same lines
one after the other, whether they are shown first or not. Of any other source it is known at least
that a cursor only asks it for lines, and that a line which the cursor does not find was asked for:
then the source has just told that it has none.
-/

namespace SnippetLens.Listing

variable {σ : Type} [LineSource σ]

/-! ### Asking -/

def Asked : σ → σ → Prop :=
  Relation.ReflTransGen fun source after => (LineSource.next source).2 = after

/-- Whether a source is what is left when there was no line the last time. -/
def Ended (source after : σ) : Prop :=
  ∃ last, Asked source last ∧ LineSource.next last = (none, after)

/-- Whether there is no line any more, however often a source is asked. -/
def Spent (source : σ) : Prop :=
  ∀ after, Asked source after → (LineSource.next after).1 = none

theorem Spent.next {source : σ} (h : Spent source) : Spent (LineSource.next source).2 :=
  fun after hafter => h after (hafter.head rfl)

/-- What asking once keeps is kept however often a source is asked. -/
theorem Asked.keeps {P : σ → Prop} (hP : ∀ {source}, P source → P (LineSource.next source).2)
    {source after : σ} (h : Asked source after) (hsource : P source) : P after := by
  induction h with
  | refl => exact hsource
  | tail _ hnext ih => exact hnext ▸ hP ih

inductive Hands : σ → List String → Prop
  | spent {source : σ} (h : Spent source) : Hands source []
  | line {source after : σ} {line : String} {lines : List String}
      (h : LineSource.next source = (some line, after)) (hafter : Hands after lines) :
      Hands source (line :: lines)

theorem hands_list (lines : List String) : Hands lines lines := by
  induction lines with
  | nil =>
    have hnil {source : List String} (h : source = []) : (LineSource.next source).2 = [] := by
      subst h
      rfl
    refine .spent fun after hafter => ?_
    obtain rfl := Asked.keeps (P := (· = [])) hnil hafter rfl
    rfl
  | cons line lines ih => exact .line rfl ih

namespace LineCursor

/-! ### Cursors over sources that stay at their end -/

def Hands (c : LineCursor σ) (lines : List String) : Prop :=
  match c.shown with
  | none => Listing.Hands c.source lines
  | some none => lines = [] ∧ Spent c.source
  | some (some line) => ∃ rest, lines = line :: rest ∧ Listing.Hands c.source rest

variable {c : LineCursor σ} {lines : List String}

theorem hands_ofSource {source : σ} (h : Listing.Hands source lines) :
    (ofSource source).Hands lines := h

theorem Hands.peek (h : c.Hands lines) : c.peek.1 = lines.head? ∧ c.peek.2.Hands lines := by
  unfold LineCursor.peek
  split
  · rename_i shown hshown
    rw [Hands, hshown] at h
    cases shown with
    | none =>
      obtain ⟨rfl, hspent⟩ := h
      exact ⟨rfl, by simp [Hands, hshown, hspent]⟩
    | some line =>
      obtain ⟨rest, rfl, hrest⟩ := h
      exact ⟨rfl, by simp [Hands, hshown, hrest]⟩
  · rename_i hshown
    rw [Hands, hshown] at h
    cases h with
    | spent hspent =>
      have hnone := hspent _ .refl
      exact ⟨hnone, by simp [Hands, hnone, hspent.next]⟩
    | line hnext hafter => exact ⟨by simp [hnext], by simp [Hands, hnext, hafter]⟩

theorem Hands.advance (h : c.Hands lines) :
    c.advance.1 = lines.head? ∧ c.advance.2.Hands lines.tail := by
  unfold LineCursor.advance
  split
  · rename_i line hshown
    rw [Hands, hshown] at h
    obtain ⟨rest, rfl, hrest⟩ := h
    exact ⟨rfl, hrest⟩
  · rename_i hshown
    rw [Hands, hshown] at h
    obtain ⟨rfl, hspent⟩ := h
    exact ⟨rfl, .spent hspent⟩
  · rename_i hshown
    rw [Hands, hshown] at h
    cases h with
    | spent hspent =>
      have hnone := hspent _ .refl
      split
      · simp_all
      · rename_i after hnext
        have hafter : Spent after := by simpa [hnext] using hspent.next
        exact ⟨rfl, by simpa [Hands, hshown] using .spent hafter⟩
    | line hnext hafter =>
      rw [hnext]
      exact ⟨rfl, by simpa [Hands, hshown] using hafter⟩

theorem Hands.of_peek_none {c' : LineCursor σ} (h : c.Hands lines)
    (hpeek : c.peek = (none, c')) : lines = [] ∧ c'.Hands [] := by
  obtain ⟨hline, hlines⟩ := h.peek
  rw [hpeek] at hline hlines
  obtain rfl := List.head?_eq_none_iff.1 hline.symm
  exact ⟨rfl, hlines⟩

theorem Hands.of_peek_some {c' : LineCursor σ} {line : String} (h : c.Hands lines)
    (hpeek : c.peek = (some line, c')) :
    ∃ rest, lines = line :: rest ∧ c'.Hands (line :: rest) ∧ c'.advance.2.Hands rest := by
  obtain ⟨hline, hlines⟩ := h.peek
  rw [hpeek] at hline hlines
  obtain ⟨rest, rfl⟩ := List.head?_eq_some_iff.1 hline.symm
  exact ⟨rest, rfl, hlines, hlines.advance.2⟩

theorem Hands.of_advance_none {c' : LineCursor σ} (h : c.Hands lines)
    (hadvance : c.advance = (none, c')) : lines = [] ∧ c'.Hands [] := by
  obtain ⟨hline, hlines⟩ := h.advance
  rw [hadvance] at hline hlines
  obtain rfl := List.head?_eq_none_iff.1 hline.symm
  exact ⟨rfl, hlines⟩

theorem Hands.of_advance_some {c' : LineCursor σ} {line : String} (h : c.Hands lines)
    (hadvance : c.advance = (some line, c')) : ∃ rest, lines = line :: rest ∧ c'.Hands rest := by
  obtain ⟨hline, hlines⟩ := h.advance
  rw [hadvance] at hline hlines
  obtain ⟨rest, rfl⟩ := List.head?_eq_some_iff.1 hline.symm
  exact ⟨rest, rfl, hlines⟩

theorem Hands.skipTo (h : c.Hands lines) (accepts : String → Bool) :
    (c.skipTo accepts).1 = (lines.dropWhile (!accepts ·)).head? ∧
      (c.skipTo accepts).2.Hands (lines.dropWhile (!accepts ·)).tail := by
  induction lines generalizing c with
  | nil =>
    obtain ⟨hnone, hnil⟩ := h.advance
    rw [skipTo_of_none (Prod.ext hnone rfl)]
    exact ⟨rfl, hnil⟩
  | cons line lines ih =>
    obtain ⟨hline, hlines⟩ := h.advance
    rw [skipTo_of_some (Prod.ext hline rfl)]
    cases haccepts : accepts line with
    | true => simpa [haccepts] using hlines
    | false => simpa [haccepts] using ih hlines

theorem Hands.of_skipTo_none {accepts : String → Bool} {c' : LineCursor σ} (h : c.Hands lines)
    (hskip : c.skipTo accepts = (none, c')) : lines.dropWhile (!accepts ·) = [] ∧ c'.Hands [] := by
  obtain ⟨hline, hlines⟩ := h.skipTo accepts
  rw [hskip] at hline hlines
  have hnil := List.head?_eq_none_iff.1 hline.symm
  exact ⟨hnil, by rwa [hnil] at hlines⟩

theorem Hands.of_skipTo_some {accepts : String → Bool} {c' : LineCursor σ} {line : String}
    (h : c.Hands lines) (hskip : c.skipTo accepts = (some line, c')) :
    ∃ rest, lines.dropWhile (!accepts ·) = line :: rest ∧ c'.Hands rest := by
  obtain ⟨hline, hlines⟩ := h.skipTo accepts
  rw [hskip] at hline hlines
  obtain ⟨rest, hrest⟩ := List.head?_eq_some_iff.1 hline.symm
  exact ⟨rest, hrest, by rwa [hrest] at hlines⟩

/-! ### Cursors over any source -/

/-- What holds of a cursor over a source: it has only asked for lines, and what it shows as the end
was told as the end. -/
structure Of (source : σ) (c : LineCursor σ) : Prop where
  asked : Asked source c.source
  ended : c.shown = some none → Ended source c.source

theorem of_ofSource (source : σ) : (ofSource source).Of source :=
  ⟨.refl, nofun⟩

theorem keeps_of (source : σ) : Keeps fun c : LineCursor σ => c.Of source where
  peek := fun {c} h => by
    unfold LineCursor.peek
    split
    · exact h
    · refine ⟨h.asked.tail rfl, fun hnone => ⟨c.source, h.asked, ?_⟩⟩
      exact Prod.ext (Option.some.inj hnone) rfl
  advance := fun {c} h => by
    unfold LineCursor.advance
    split
    · exact ⟨h.asked, nofun⟩
    · exact ⟨h.asked, nofun⟩
    · rename_i hshown
      have hasked := h.asked.tail rfl
      split
      · rename_i hnext
        rw [hnext] at hasked
        exact ⟨hasked, by simp [hshown]⟩
      · rename_i hnext
        rw [hnext] at hasked
        exact ⟨hasked, by simp [hshown]⟩

variable {source : σ} {c' : LineCursor σ}

theorem Of.ended_of_advance (h : c.Of source) (hnone : c.advance = (none, c')) :
    Ended source c'.source := by
  unfold LineCursor.advance at hnone
  split at hnone
  · simp at hnone
  · rename_i hshown
    cases hnone
    exact h.ended hshown
  · split at hnone
    · simp at hnone
    · rename_i hnext
      cases hnone
      exact ⟨c.source, h.asked, hnext⟩

theorem Of.ended_of_skipTo (h : c.Of source) {accepts : String → Bool}
    (hnone : c.skipTo accepts = (none, c')) : Ended source c'.source := by
  induction c using advance_induction with
  | ended c after hadvance =>
    rw [skipTo_of_none hadvance] at hnone
    cases hnone
    exact h.ended_of_advance hadvance
  | line c line after hadvance ih =>
    have hafter := (keeps_of source).of_advance hadvance h
    rw [skipTo_of_some hadvance] at hnone
    split at hnone
    · simp at hnone
    · exact ih hafter hnone

end LineCursor

/-! ### Readings -/

/-- Whether a reading puts out the front of some items, and leaves lines that lead to the others.
What was put out before is `out`, last first. -/
def Reads {ω : Type} (r : List ω × LineCursor σ) (out whole : List ω)
    (after : List String → List ω) : Prop :=
  ∃ items rest, r.1 = items.reverse ++ out ∧ r.2.Hands rest ∧ whole = items ++ after rest

namespace Reads

variable {ω : Type} {r r' : List ω × LineCursor σ} {out whole : List ω}
  {after after' : List String → List ω}

theorem stop {c : LineCursor σ} {rest : List String} (h : c.Hands rest)
    (hwhole : whole = after rest) : Reads (out, c) out whole after :=
  ⟨[], rest, rfl, h, hwhole⟩

theorem put {items : List ω} (h : Reads r (items.reverse ++ out) whole after) :
    Reads r out (items ++ whole) after := by
  obtain ⟨more, rest, hout, hrest, rfl⟩ := h
  exact ⟨items ++ more, rest, by simp [hout], hrest, by simp⟩

theorem andThen (h : Reads r out whole after)
    (h' : ∀ {rest}, r.2.Hands rest → Reads r' r.1 (after rest) after') :
    Reads r' out whole after' := by
  obtain ⟨items, rest, hout, hrest, rfl⟩ := h
  have hnext := h' hrest
  rw [hout] at hnext
  exact hnext.put

end Reads

end SnippetLens.Listing
