import SnippetLens.Listing.Source

/-!
A cursor over the lines of a listing. It goes forward only, and holds back at most one line,
the one it was asked to show without consuming it; so a listing can be read straight from a
stream.
-/

namespace SnippetLens.Listing

/-- A place between two lines of a source. -/
structure LineCursor (σ : Type) where
  source : σ
  /-- What the source handed out last, when it was shown and not consumed yet. -/
  shown : Option (Option String) := none
  /-- How many lines were consumed. -/
  position : Nat := 0

namespace LineCursor

variable {σ : Type} [LineSource σ]

def ofSource (source : σ) : LineCursor σ :=
  { source }

def peek (c : LineCursor σ) : Option String × LineCursor σ :=
  match c.shown with
  | some line => (line, c)
  | none =>
    let (line, source) := LineSource.next c.source
    (line, { c with source, shown := some line })

/-- The current line, consumed. At the end there is none, and the position stays. -/
def advance (c : LineCursor σ) : Option String × LineCursor σ :=
  match c.shown with
  | some (some line) => (some line, { c with shown := none, position := c.position + 1 })
  | some none => (none, { c with shown := none })
  | none =>
    match LineSource.next c.source with
    | (some line, source) => (some line, { c with source, position := c.position + 1 })
    | (none, source) => (none, { c with source })

def remaining (c : LineCursor σ) : Nat :=
  LineSource.size c.source + (match c.shown with | some (some _) => 1 | _ => 0)

theorem remaining_peek_le (c : LineCursor σ) : c.peek.2.remaining ≤ c.remaining := by
  unfold peek
  split
  · exact Nat.le_refl _
  · rename_i hshown
    cases hnext : LineSource.next c.source with
    | mk line source =>
      cases line with
      | none =>
        have hsize := LineSource.size_next_le hnext
        simp only [remaining, hshown]
        omega
      | some line =>
        have hsize := LineSource.size_next_lt hnext
        simp only [remaining, hshown]
        omega

theorem remaining_advance_lt {c c' : LineCursor σ} {line : String}
    (h : c.advance = (some line, c')) : c'.remaining < c.remaining := by
  unfold advance at h
  split at h
  · rename_i shown
    cases h
    simp [remaining, shown]
  · simp at h
  · rename_i shown
    split at h
    · rename_i source next
      cases h
      simpa [remaining, shown] using LineSource.size_next_lt next
    · simp at h

theorem remaining_advance_le (c : LineCursor σ) : c.advance.2.remaining ≤ c.remaining := by
  cases hadvance : c.advance with
  | mk line c' =>
    cases line with
    | some line => exact Nat.le_of_lt (remaining_advance_lt hadvance)
    | none =>
      unfold advance at hadvance
      split at hadvance
      · simp at hadvance
      · rename_i hshown
        cases hadvance
        simp [remaining, hshown]
      · rename_i hshown
        split at hadvance
        · simp at hadvance
        · rename_i source hnext
          cases hadvance
          simpa [remaining, hshown] using LineSource.size_next_le hnext

/-- What holds at the end, and of a cursor whenever it holds behind its next line, holds of every
cursor. -/
@[elab_as_elim] theorem advance_induction {P : LineCursor σ → Prop}
    (ended : ∀ c c', c.advance = (none, c') → P c)
    (line : ∀ c line c', c.advance = (some line, c') → P c' → P c) (c : LineCursor σ) : P c := by
  induction hremaining : c.remaining using Nat.strongRecOn generalizing c with
  | ind n ih =>
    subst hremaining
    cases hadvance : c.advance with
    | mk found c' =>
      cases found with
      | none => exact ended c c' hadvance
      | some found => exact line c found c' hadvance (ih _ (remaining_advance_lt hadvance) c' rfl)

@[simp] theorem shown_peek (c : LineCursor σ) : c.peek.2.shown = some c.peek.1 := by
  unfold peek
  split
  · rename_i hshown
    exact hshown
  · rfl

@[simp] theorem position_peek (c : LineCursor σ) : c.peek.2.position = c.position := by
  unfold peek
  split <;> rfl

theorem position_advance (c : LineCursor σ) :
    c.advance.2.position = c.position + c.advance.1.toList.length := by
  unfold advance
  split
  · rfl
  · rfl
  · split <;> rfl

theorem advance_of_shown {c : LineCursor σ} {line : String} (h : c.shown = some (some line)) :
    c.advance = (some line, { c with shown := none, position := c.position + 1 }) := by
  rw [advance, h]

/-- A line that is shown and then consumed is one line less. -/
theorem remaining_advance_peek_lt {c c' : LineCursor σ} {line : String}
    (h : c.peek = (some line, c')) : c'.advance.2.remaining < c.remaining := by
  have hshown := c.shown_peek
  have hle := c.remaining_peek_le
  rw [h] at hshown hle
  have hadvance := advance_of_shown hshown
  have hlt := remaining_advance_lt hadvance
  rw [hadvance]
  exact Nat.lt_of_lt_of_le hlt hle

/-- Consumes lines up to and including the first one that `accepts` takes. It is asked about
each consumed line once, in order, and carries a state of its own along. -/
def skipPast {τ : Type} (accepts : τ → String → Bool × τ) (t : τ) (c : LineCursor σ) :
    Option String × τ × LineCursor σ :=
  match _h : c.advance with
  | (none, c') => (none, t, c')
  | (some line, c') =>
    match accepts t line with
    | (true, t') => (some line, t', c')
    | (false, t') => skipPast accepts t' c'
termination_by c.remaining
decreasing_by exact remaining_advance_lt _h

section SkipPast

variable {τ : Type} {accepts : τ → String → Bool × τ} {c c' : LineCursor σ}

theorem skipPast_of_none (t : τ) (h : c.advance = (none, c')) :
    c.skipPast accepts t = (none, t, c') := by
  rw [skipPast]
  split <;> simp_all

theorem skipPast_of_some (t : τ) {line : String} (h : c.advance = (some line, c')) :
    c.skipPast accepts t =
      if (accepts t line).1 then (some line, (accepts t line).2, c')
      else c'.skipPast accepts (accepts t line).2 := by
  rw [skipPast]
  split
  · simp_all
  · rename_i found after hadvance
    obtain ⟨rfl, rfl⟩ : found = line ∧ after = c' := by simpa using hadvance.symm.trans h
    split <;> simp_all

end SkipPast

def skipTo (accepts : String → Bool) (c : LineCursor σ) : Option String × LineCursor σ :=
  let r := c.skipPast (fun _ line => (accepts line, ())) ()
  (r.1, r.2.2)

theorem skipTo_of_none {accepts : String → Bool} {c c' : LineCursor σ}
    (h : c.advance = (none, c')) : c.skipTo accepts = (none, c') := by
  rw [skipTo, skipPast_of_none () h]

theorem skipTo_of_some {accepts : String → Bool} {c c' : LineCursor σ} {line : String}
    (h : c.advance = (some line, c')) :
    c.skipTo accepts = if accepts line then (some line, c') else c'.skipTo accepts := by
  rw [skipTo, skipPast_of_some () h]
  split <;> rfl

/-- Whether asking for lines keeps something that holds of a cursor. -/
structure Keeps (P : LineCursor σ → Prop) : Prop where
  peek : ∀ {c}, P c → P c.peek.2
  advance : ∀ {c}, P c → P c.advance.2

theorem Keeps.of_peek {P : LineCursor σ → Prop} (hP : Keeps P) {c c' : LineCursor σ}
    {line : Option String} (hpeek : c.peek = (line, c')) (h : P c) : P c' := by
  have hkept := hP.peek h
  rwa [hpeek] at hkept

theorem Keeps.of_advance {P : LineCursor σ → Prop} (hP : Keeps P) {c c' : LineCursor σ}
    {line : Option String} (hadvance : c.advance = (line, c')) (h : P c) : P c' := by
  have hkept := hP.advance h
  rwa [hadvance] at hkept

theorem Keeps.skipTo {P : LineCursor σ → Prop} (hP : Keeps P) (accepts : String → Bool)
    {c : LineCursor σ} (h : P c) : P (c.skipTo accepts).2 := by
  induction c using advance_induction with
  | ended c c' hadvance =>
    rw [skipTo_of_none hadvance]
    exact hP.of_advance hadvance h
  | line c line c' hadvance ih =>
    have hkept := hP.of_advance hadvance h
    rw [skipTo_of_some hadvance]
    split
    · exact hkept
    · exact ih hkept

theorem Keeps.of_skipTo {P : LineCursor σ → Prop} (hP : Keeps P) {accepts : String → Bool}
    {c c' : LineCursor σ} {line : Option String} (hskip : c.skipTo accepts = (line, c'))
    (h : P c) : P c' := by
  have hkept := hP.skipTo accepts h
  rwa [hskip] at hkept

theorem keeps_remaining_le (n : Nat) : Keeps fun c : LineCursor σ => c.remaining ≤ n where
  peek := fun {c} h => Nat.le_trans c.remaining_peek_le h
  advance := fun {c} h => Nat.le_trans c.remaining_advance_le h

theorem remaining_skipTo_lt {accepts : String → Bool} {c c' : LineCursor σ} {line : String}
    (h : c.skipTo accepts = (some line, c')) : c'.remaining < c.remaining := by
  cases hc : c.advance with
  | mk first after =>
    cases first with
    | none => simp [skipTo_of_none hc] at h
    | some first =>
      -- The first line is consumed, whether it is accepted or not.
      have hlt := remaining_advance_lt hc
      rw [skipTo_of_some hc] at h
      split at h
      · cases h
        exact hlt
      · have hle := (keeps_remaining_le _).of_skipTo h (Nat.le_refl after.remaining)
        exact Nat.lt_of_le_of_lt hle hlt

end LineCursor

end SnippetLens.Listing
