import Mathlib.Data.List.Basic
import SnippetLens.NativeCode.Pattern

/-!
How the patterns of a native code dump exclude one another.

A class header begins with a digit, and a method header or an instruction with a blank. Behind its
blanks a method header goes on with a number and a colon, an instruction with `0x`. Since no digit
is a blank, a pattern that fails on blanks is tried only where they end, and so no line matches two
of the three.
-/

namespace SnippetLens.Text

theorem digitRunStarts_apart : ∀ start ∈ digitRunStarts, ∀ range ∈ blankRanges,
    range.2 < start ∨ start + 10 ≤ range.1 := by
  decide

theorem isBlank_of_isDigit {c : Char} (h : isDigit c = true) : isBlank c = false := by
  obtain ⟨start, hstart, hc⟩ := List.any_eq_true.1 h
  simp only [Bool.and_eq_true, decide_eq_true_eq] at hc
  rw [isBlank, inRanges, List.any_eq_false]
  intro range hrange
  have hapart := digitRunStarts_apart start hstart range hrange
  simp only [Bool.and_eq_true, decide_eq_true_eq, not_and]
  omega

/-- What fails in front of a blank is tried only behind the blanks. -/
theorem afterBlanks_eq_dropBlanks {α : Type} {next : List Char → Option α}
    (h : ∀ c r, isBlank c = true → next (c :: r) = none) (cs : List Char) :
    afterBlanks next cs = next (dropBlanks cs) := by
  induction cs with
  | nil => rfl
  | cons c r ih =>
    by_cases hc : isBlank c = true
    · simpa [afterBlanks, dropBlanks, hc, h c r hc] using ih
    · simp [afterBlanks, dropBlanks, hc]

theorem head_of_afterBlanks1 {α : Type} {next : List Char → Option α} {cs : List Char} {a : α}
    (h : afterBlanks1 next cs = some a) : ∃ c, cs.head? = some c ∧ isBlank c = true := by
  cases cs with
  | nil => simp [afterBlanks1] at h
  | cons c r =>
    rw [afterBlanks1] at h
    split at h
    · rename_i hc
      exact ⟨c, rfl, hc⟩
    · simp at h

/-- A match behind one blank or more, of something that fails in front of a blank. -/
theorem dropBlanks_of_afterBlanks1 {α : Type} {next : List Char → Option α} {cs : List Char} {a : α}
    (hnext : ∀ c r, isBlank c = true → next (c :: r) = none) (h : afterBlanks1 next cs = some a) :
    next (dropBlanks cs) = some a := by
  cases cs with
  | nil => simp [afterBlanks1] at h
  | cons c r =>
    rw [afterBlanks1] at h
    split at h
    · rename_i hc
      rw [afterBlanks_eq_dropBlanks hnext] at h
      simpa [dropBlanks, hc] using h
    · simp at h

theorem head_of_run? {p : Char → Bool} {cs run rest : List Char}
    (h : run? p cs = some (run, rest)) :
    ∃ c, cs.head? = some c ∧ p c = true := by
  cases cs with
  | nil => simp [run?] at h
  | cons c r =>
    cases hc : p c with
    | false => simp [run?, hc] at h
    | true => exact ⟨c, rfl, hc⟩

end SnippetLens.Text

namespace SnippetLens.NativeCode

open Text

/-! ### First characters -/

theorem head_of_classHeader? {line : String} {name : List Char}
    (h : classHeader? line = some name) : ∃ c, line.toList.head? = some c ∧ isDigit c = true := by
  simp only [classHeader?, Option.bind_eq_bind, Option.bind_eq_some_iff] at h
  obtain ⟨⟨_, _⟩, hindex, _⟩ := h
  exact head_of_run? hindex

theorem head_of_methodHeader? {line signature : String} (h : methodHeader? line = some signature) :
    ∃ c, line.toList.head? = some c ∧ isBlank c = true := by
  simp only [methodHeader?, Option.bind_eq_bind, Option.bind_eq_some_iff] at h
  obtain ⟨_, hsignature, _⟩ := h
  exact head_of_afterBlanks1 hsignature

theorem head_of_instruction? {line : String} {i : String × String}
    (h : instruction? line = some i) :
    ∃ c, line.toList.head? = some c ∧ isBlank c = true := by
  simp only [instruction?, Option.bind_eq_bind, Option.bind_eq_some_iff] at h
  obtain ⟨_, hi, _⟩ := h
  exact head_of_afterBlanks1 hi

/-! ### Behind the blanks -/

theorem number_of_methodHeader? {line signature : String}
    (h : methodHeader? line = some signature) :
    ∃ number rest, run? isDigit (dropBlanks line.toList) = some (number, ':' :: rest) := by
  simp only [methodHeader?, Option.bind_eq_bind, Option.bind_eq_some_iff] at h
  obtain ⟨_, hsignature, _⟩ := h
  have hbehind := dropBlanks_of_afterBlanks1 ?_ hsignature
  · simp only [Option.bind_eq_some_iff] at hbehind
    obtain ⟨⟨number, afterNumber⟩, hnumber, rest, hcolon, _⟩ := hbehind
    obtain rfl : afterNumber = ':' :: rest := after?_eq_some_iff.1 hcolon
    exact ⟨number, rest, hnumber⟩
  · intro c r hc
    cases hdigit : isDigit c with
    | false => simp [run?, hdigit]
    | true => simp [isBlank_of_isDigit hdigit] at hc

theorem address_of_instruction? {line : String} {i : String × String}
    (h : instruction? line = some i) : ∃ rest, dropBlanks line.toList = '0' :: 'x' :: rest := by
  simp only [instruction?, Option.bind_eq_bind, Option.bind_eq_some_iff] at h
  obtain ⟨_, hi, _⟩ := h
  have hbehind := dropBlanks_of_afterBlanks1 ?_ hi
  · simp only [Option.bind_eq_some_iff] at hbehind
    obtain ⟨rest, hlead, _⟩ := hbehind
    exact ⟨rest, after?_eq_some_iff.1 hlead⟩
  · intro c r hc
    have hzero : '0' ≠ c := by
      rintro rfl
      exact absurd hc (by decide)
    simp [after?, hzero]

/-! ### No line matches two patterns -/

theorem methodHeader?_of_classHeader? {line : String} {name : List Char}
    (h : classHeader? line = some name) : methodHeader? line = none := by
  obtain ⟨c, hhead, hdigit⟩ := head_of_classHeader? h
  rw [Option.eq_none_iff_forall_ne_some]
  intro signature hmethod
  obtain ⟨c', hhead', hblank⟩ := head_of_methodHeader? hmethod
  obtain rfl : c = c' := Option.some.inj (hhead.symm.trans hhead')
  simp [isBlank_of_isDigit hdigit] at hblank

theorem instruction?_of_classHeader? {line : String} {name : List Char}
    (h : classHeader? line = some name) : instruction? line = none := by
  obtain ⟨c, hhead, hdigit⟩ := head_of_classHeader? h
  rw [Option.eq_none_iff_forall_ne_some]
  intro i hinstruction
  obtain ⟨c', hhead', hblank⟩ := head_of_instruction? hinstruction
  obtain rfl : c = c' := Option.some.inj (hhead.symm.trans hhead')
  simp [isBlank_of_isDigit hdigit] at hblank

theorem instruction?_of_methodHeader? {line signature : String}
    (h : methodHeader? line = some signature) : instruction? line = none := by
  obtain ⟨number, rest, hnumber⟩ := number_of_methodHeader? h
  rw [Option.eq_none_iff_forall_ne_some]
  intro i hinstruction
  obtain ⟨behind, hbehind⟩ := address_of_instruction? hinstruction
  have hzero : isDigit '0' = true := by decide
  have hx : isDigit 'x' = false := by decide
  simp [hbehind, run?, hzero, hx] at hnumber

end SnippetLens.NativeCode
