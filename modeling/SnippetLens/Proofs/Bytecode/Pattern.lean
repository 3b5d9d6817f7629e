import Mathlib.Data.List.TakeWhile
import SnippetLens.Bytecode.Pattern
import SnippetLens.Listing.ClassName

/-!
How the patterns of a bytecode dump exclude one another.

An instruction and a code header begin with a hexadecimal digit, a method start with a blank, and a
class start with its keyword; a blank line has nothing behind its blanks. From these first
characters it follows which lines end the body of a method: method starts, blank lines and class
starts all do.

What a pattern takes out of a line never holds a line break, even where the line does; so what is
written of it stays on one line.
-/

namespace SnippetLens.Bytecode

open Listing Text

def declaredName (line : String) : String :=
  ((classDescriptor? line).map dotted).getD unknownName

/-! ### First characters -/

theorem isBlank_of_isHexDigit {c : Char} (h : isHexDigit c = true) : isBlank c = false := by
  simp only [isHexDigit, Bool.or_eq_true, Bool.and_eq_true, decide_eq_true_eq, Char.le_def,
    UInt32.le_iff_toNat_le] at h
  have hrange : 48 ≤ c.toNat ∧ c.toNat ≤ 102 := by
    rcases h with (h | h) | h <;> exact ⟨le_trans (by decide) h.1, le_trans h.2 (by decide)⟩
  simp [isBlank, inRanges, blankRanges]
  omega

theorem isHexDigit_of_isBlank {c : Char} (h : isBlank c = true) : isHexDigit c = false := by
  cases hc : isHexDigit c with
  | false => rfl
  | true => simp [isBlank_of_isHexDigit hc] at h

theorem run?_eq_none {p : Char → Bool} {cs : List Char} (h : ∀ c, cs.head? = some c → p c = false) :
    run? p cs = none := by
  cases cs with
  | nil => rfl
  | cons c r => simp [run?, h c rfl]

theorem instruction?_eq_none {line : String}
    (h : ∀ c, line.toList.head? = some c → isHexDigit c = false) : instruction? line = none := by
  simp [instruction?, run?_eq_none h]

theorem isCodeHeader_eq_false {line : String}
    (h : ∀ c, line.toList.head? = some c → isHexDigit c = false) : isCodeHeader line = false := by
  simp [isCodeHeader, run?_eq_none h]

theorem head_of_isMethodStart {line : String} (h : isMethodStart line = true) :
    ∃ c, line.toList.head? = some c ∧ isBlank c = true := by
  unfold isMethodStart at h
  cases hcs : line.toList with
  | nil => simp [hcs, afterBlanks1] at h
  | cons c r =>
    cases hc : isBlank c with
    | false => simp [hcs, afterBlanks1, hc] at h
    | true => exact ⟨c, rfl, hc⟩

theorem mem_of_afterBlanks {cs : List Char}
    (h : (afterBlanks (fun cs => after? ['#'] cs) cs).isSome = true) : '#' ∈ cs := by
  have hnow : ∀ cs : List Char, (after? ['#'] cs).isSome = true → '#' ∈ cs := by
    intro cs hcs
    obtain ⟨r, hr⟩ := Option.isSome_iff_exists.1 hcs
    simp [after?_eq_some_iff.1 hr]
  induction cs with
  | nil => exact hnow [] h
  | cons c r ih =>
    rw [afterBlanks] at h
    split at h
    · rw [Option.isSome_or, Bool.or_eq_true] at h
      exact h.elim (fun h => List.mem_cons_of_mem c (ih h)) (hnow _)
    · exact hnow _ h

theorem allBlank_of_isMethodStart {line : String} (h : isMethodStart line = true) :
    allBlank line = false := by
  have hmem : '#' ∈ line.toList := by
    unfold isMethodStart at h
    cases hcs : line.toList with
    | nil => simp [hcs, afterBlanks1] at h
    | cons c r =>
      cases hc : isBlank c with
      | false => simp [hcs, afterBlanks1, hc] at h
      | true =>
        rw [hcs, afterBlanks1, if_pos hc] at h
        exact List.mem_cons_of_mem c (mem_of_afterBlanks h)
  cases hall : allBlank line with
  | false => rfl
  | true =>
    have hsign : isBlank '#' = true := List.all_eq_true.1 hall _ hmem
    exact absurd hsign (by decide)

/-- A class start begins with a letter that is a hexadecimal digit, and goes on with one that is
neither a digit nor the colon behind an offset. -/
theorem toList_of_isClassStart {line : String} (h : isClassStart line = true) :
    ∃ r, line.toList = 'C' :: 'l' :: r := by
  obtain ⟨r, hr⟩ := List.isPrefixOf_iff_prefix.1 h
  exact ⟨"ass #".toList ++ r, hr.symm⟩

/-! ### Lines of a body -/

theorem instruction?_of_ofLine_instruction {line text : String}
    (h : BodyLine.ofLine line = .instruction text) : instruction? line = some text := by
  unfold BodyLine.ofLine at h
  cases hi : instruction? line with
  | some decoded => simpa [hi] using h
  | none =>
    by_cases hstart : isMethodStart line <;>
      by_cases hmeta : (isIndented line || isCodeHeader line) = true <;>
        simp [hi, hstart, hmeta] at h

theorem instruction?_of_ofLine_metadata {line : String}
    (h : BodyLine.ofLine line = .metadata) : instruction? line = none := by
  unfold BodyLine.ofLine at h
  cases hi : instruction? line with
  | some decoded => simp [hi] at h
  | none => rfl

/-! ### Lines that end a body -/

theorem ofLine_of_isMethodStart {line : String} (h : isMethodStart line = true) :
    BodyLine.ofLine line = .boundary := by
  obtain ⟨c, hhead, hblank⟩ := head_of_isMethodStart h
  have hnone : instruction? line = none := by
    apply instruction?_eq_none
    rw [hhead]
    rintro _ ⟨⟩
    exact isHexDigit_of_isBlank hblank
  simp [BodyLine.ofLine, hnone, h]

theorem ofLine_of_allBlank {line : String} (h : allBlank line = true) :
    BodyLine.ofLine line = .boundary := by
  have hblank : ∀ c ∈ line.toList, isBlank c = true := by simpa [allBlank] using h
  have hhead : ∀ c, line.toList.head? = some c → isHexDigit c = false :=
    fun c hc => isHexDigit_of_isBlank (hblank c (List.mem_of_head? hc))
  have hempty : dropBlanks line.toList = [] := List.dropWhile_eq_nil_iff.2 hblank
  simp [BodyLine.ofLine, instruction?_eq_none hhead, isCodeHeader_eq_false hhead, isIndented, hempty]

theorem ofLine_of_isClassStart {line : String} (h : isClassStart line = true) :
    BodyLine.ofLine line = .boundary := by
  obtain ⟨r, hr⟩ := toList_of_isClassStart h
  have hhex : isHexDigit 'C' = true ∧ isHexDigit 'l' = false := by decide
  have hblank : isBlank 'C' = false := by decide
  simp [BodyLine.ofLine, instruction?, isCodeHeader, isIndented, run?, after?, hr, hhex, hblank]

theorem isClassStart_of_inside {line : String} (h : BodyLine.ofLine line ≠ .boundary) :
    isClassStart line = false := by
  rw [Bool.eq_false_iff]
  exact fun hline => h (ofLine_of_isClassStart hline)

theorem allBlank_of_isClassStart {line : String} (h : isClassStart line = true) :
    allBlank line = false := by
  obtain ⟨r, hr⟩ := toList_of_isClassStart h
  have hblank : isBlank 'C' = false := by decide
  simp [allBlank, hr, hblank]

theorem isMethodStart_of_isClassStart {line : String} (h : isClassStart line = true) :
    isMethodStart line = false := by
  obtain ⟨r, hr⟩ := toList_of_isClassStart h
  have hblank : isBlank 'C' = false := by decide
  simp [isMethodStart, afterBlanks1, hr, hblank]

/-! ### Values stay on one line -/

theorem newline_notMem_field? {keyword opening closing line : String} {value : List Char}
    (h : field? keyword opening closing line = some value) : '\n' ∉ value := by
  obtain ⟨cs, hcs⟩ := exists_of_leftmost h
  simp only [fieldHere?, Option.bind_eq_bind, Option.bind_eq_some_iff] at hcs
  obtain ⟨_, -, _, -, _, -, hvalue⟩ := hcs
  exact newline_notMem_longestBefore1 hvalue

theorem newline_notMem_unknownName : '\n' ∉ unknownName.toList := by decide

theorem newline_notMem_declaredName (line : String) : '\n' ∉ (declaredName line).toList := by
  unfold declaredName
  cases h : classDescriptor? line with
  | none => exact newline_notMem_unknownName
  | some value =>
    have hvalue := newline_notMem_field? h
    simp only [Option.map_some, Option.getD_some, dotted, String.toList_ofList, List.mem_map,
      not_exists, not_and]
    intro c hc
    split
    · decide
    · rintro rfl
      exact hvalue hc

theorem newline_notMem_getD_field? (keyword opening closing line : String) :
    '\n' ∉ (((field? keyword opening closing line).map String.ofList).getD unknownName).toList := by
  cases h : field? keyword opening closing line with
  | none => exact newline_notMem_unknownName
  | some value => simpa using newline_notMem_field? h

theorem newline_notMem_instruction? {line text : String} (h : instruction? line = some text) :
    '\n' ∉ text.toList := by
  simp only [instruction?, Option.bind_eq_bind, Option.bind_eq_some_iff] at h
  obtain ⟨_, -, _, -, _, -, decoded, -, ⟨address, _⟩, haddress, _, -, rest, hrest, h⟩ := h
  have hhex : '\n' ∉ address := fun hmem => absurd (forall_of_run? haddress _ hmem) (by decide)
  have hvalue := newline_notMem_restOfLine1 hrest
  cases h
  simp [hhex, hvalue]

end SnippetLens.Bytecode
