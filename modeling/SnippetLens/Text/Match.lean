import SnippetLens.Text.Digit

/-!
Recognisers for the patterns of a line, over lists of characters.

A recogniser answers with the first match in the order of preference of the pattern: an
earlier start before a later one, a longer repetition before a shorter one (or the reverse,
where the repetition is a shortest one). Each recogniser here is a structural recursion that
tries its alternatives in that order.
-/

namespace SnippetLens.Text

/-- The first answer of `p`, tried at each place of the characters from the front on. -/
def leftmost (p : List Char → Option α) : List Char → Option α
  | [] => p []
  | c :: r => (p (c :: r)).or (leftmost p r)

/-- A nonempty run of characters of a class, taken as long as possible, and what follows. -/
def run? (p : Char → Bool) (cs : List Char) : Option (List Char × List Char) :=
  match cs.takeWhile p with
  | [] => none
  | c :: r => some (c :: r, cs.dropWhile p)

/-- Blanks, as many as possible, and then what `next` recognises. -/
def afterBlanks (next : List Char → Option α) : List Char → Option α
  | [] => next []
  | c :: r => if isBlank c then (afterBlanks next r).or (next (c :: r)) else next (c :: r)

/-- One blank or more, as many as possible, and then what `next` recognises. -/
def afterBlanks1 (next : List Char → Option α) : List Char → Option α
  | [] => none
  | c :: r => if isBlank c then afterBlanks next r else none

/-- The longest stretch without a line break that `closing` follows. -/
def longestBefore (closing : List Char) : List Char → Option (List Char)
  | [] => if closing.isEmpty then some [] else none
  | c :: r =>
    (if c = '\n' then none else (longestBefore closing r).map (c :: ·)).or
      (if closing.isPrefixOf (c :: r) then some [] else none)

/-- The longest nonempty stretch without a line break that `closing` follows. -/
def longestBefore1 (closing : List Char) : List Char → Option (List Char)
  | [] => none
  | c :: r => if c = '\n' then none else (longestBefore closing r).map (c :: ·)

/-- The shortest nonempty stretch without a line break after which `next` holds. -/
def shortestBefore1 (next : List Char → Bool) : List Char → Option (List Char)
  | [] => none
  | c :: r =>
    if c = '\n' then none
    else if next r then some [c]
    else (shortestBefore1 next r).map (c :: ·)

/-- All of the characters, when there is one and none is a line break. -/
def restOfLine1 (cs : List Char) : Option (List Char) :=
  if cs.isEmpty || cs.contains '\n' then none else some cs

/-! ### What the matches are made of -/

theorem exists_of_leftmost {p : List Char → Option α} {cs : List Char} {a : α}
    (h : leftmost p cs = some a) : ∃ rest, p rest = some a := by
  induction cs with
  | nil => exact ⟨[], h⟩
  | cons c r ih =>
    rw [leftmost, Option.or_eq_some_iff] at h
    exact h.elim (fun h => ⟨_, h⟩) fun h => ih h.2

theorem forall_of_run? {p : Char → Bool} {cs run rest : List Char}
    (h : run? p cs = some (run, rest)) : ∀ c ∈ run, p c = true := by
  unfold run? at h
  split at h
  · simp at h
  · rename_i c r htake
    cases h
    intro d hd
    rw [← htake] at hd
    exact List.all_eq_true.1 List.all_takeWhile d hd

theorem newline_notMem_longestBefore {closing cs value : List Char}
    (h : longestBefore closing cs = some value) : '\n' ∉ value := by
  induction cs generalizing value with
  | nil => simp_all [longestBefore]
  | cons c r ih =>
    rw [longestBefore, Option.or_eq_some_iff] at h
    rcases h with h | ⟨-, h⟩
    · split at h
      · simp at h
      · rename_i hc
        obtain ⟨tail, htail, rfl⟩ := Option.map_eq_some_iff.1 h
        simp [ih htail, Ne.symm hc]
    · simp_all

theorem newline_notMem_longestBefore1 {closing cs value : List Char}
    (h : longestBefore1 closing cs = some value) : '\n' ∉ value := by
  cases cs with
  | nil => simp [longestBefore1] at h
  | cons c r =>
    rw [longestBefore1] at h
    split at h
    · simp at h
    · rename_i hc
      obtain ⟨tail, htail, rfl⟩ := Option.map_eq_some_iff.1 h
      simp [newline_notMem_longestBefore htail, Ne.symm hc]

theorem newline_notMem_restOfLine1 {cs value : List Char} (h : restOfLine1 cs = some value) :
    '\n' ∉ value := by
  unfold restOfLine1 at h
  split at h
  · simp at h
  · rename_i hcs
    cases h
    simp_all

end SnippetLens.Text
