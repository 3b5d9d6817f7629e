import Mathlib.Data.List.Basic
import SnippetLens.Text.Search

/-!
Erasing a text wherever it stands.

What is erased is taken out in whole, so the length tells how often it was; and nothing is erased
exactly if it stands nowhere. A text without a line break is erased line by line.
-/

namespace SnippetLens.Text

variable {needle : List Char}

theorem eraseFrom_sublist (needle : List Char) (dropped : Nat) (cs : List Char) :
    (eraseFrom needle dropped cs).Sublist cs := by
  fun_induction eraseFrom needle dropped cs with
  | case1 => exact .refl _
  | case2 c r _ ih => exact ih.cons c
  | case3 c r _ ih => exact ih.cons_cons c
  | case4 dropped c r ih => exact ih.cons c

theorem eraseFrom_length_append (needle front rest : List Char) :
    eraseFrom needle front.length (front ++ rest) = eraseFrom needle 0 rest := by
  induction front with
  | nil => rfl
  | cons c front ih => simpa [eraseFrom] using ih

theorem eraseFrom_self_append (h : needle ≠ []) (rest : List Char) :
    eraseFrom needle 0 (needle ++ rest) = eraseFrom needle 0 rest := by
  cases needle with
  | nil => exact absurd rfl h
  | cons a needle => simp [eraseFrom, eraseFrom_length_append]

theorem exists_length_eraseFrom (h : needle ≠ []) {dropped : Nat} {cs : List Char}
    (hdropped : dropped ≤ cs.length) : ∃ count,
    cs.length = dropped + (eraseFrom needle dropped cs).length + count * needle.length := by
  have hpos : 0 < needle.length := List.length_pos_iff.2 h
  fun_induction eraseFrom needle dropped cs with
  | case1 dropped => exact ⟨0, by simp at hdropped; simp [hdropped]⟩
  | case2 c r hfront ih =>
    have hlength : needle.length ≤ r.length + 1 := (List.isPrefixOf_iff_prefix.1 hfront).length_le
    obtain ⟨count, hcount⟩ := ih (by omega)
    refine ⟨count + 1, ?_⟩
    rw [List.length_cons, Nat.add_mul]
    omega
  | case3 c r _ ih =>
    obtain ⟨count, hcount⟩ := ih (Nat.zero_le _)
    exact ⟨count, by simp only [List.length_cons]; omega⟩
  | case4 dropped c r ih =>
    obtain ⟨count, hcount⟩ := ih (by simpa using hdropped)
    exact ⟨count, by simp only [List.length_cons]; omega⟩

theorem eraseFrom_eq_self_iff (h : needle ≠ []) {cs : List Char} :
    eraseFrom needle 0 cs = cs ↔ occursIn needle cs = false := by
  induction cs with
  | nil => simp [eraseFrom, occursIn, h]
  | cons c r ih =>
    by_cases hfront : needle.isPrefixOf (c :: r) = true
    · have hshort := (eraseFrom_sublist needle (needle.length - 1) r).length_le
      have hne : eraseFrom needle (needle.length - 1) r ≠ c :: r := fun heq => by
        rw [heq, List.length_cons] at hshort
        omega
      simp [eraseFrom, occursIn, hfront, hne]
    · simp [eraseFrom, occursIn, hfront, ih]

theorem isPrefixOf_append_cons {x : Char} (hx : x ∉ needle) (front rest : List Char) :
    needle.isPrefixOf (front ++ x :: rest) = needle.isPrefixOf front := by
  rw [Bool.eq_iff_iff, List.isPrefixOf_iff_prefix, List.isPrefixOf_iff_prefix]
  refine ⟨fun h => ?_, fun h => h.trans (List.prefix_append _ _)⟩
  refine List.prefix_of_prefix_length_le h (List.prefix_append _ _) ?_
  by_contra hlong
  have hwhole : front ++ [x] <+: front ++ x :: rest := ⟨rest, by simp⟩
  have hfront : front ++ [x] <+: needle := by
    refine List.prefix_of_prefix_length_le hwhole h ?_
    rw [List.length_append, List.length_singleton]
    omega
  exact hx (hfront.subset (by simp))

/-- A character that the needle does not have parts the places where it stands. -/
theorem eraseFrom_append_cons (h : needle ≠ []) {x : Char} (hx : x ∉ needle) {dropped : Nat}
    {front : List Char} (hdropped : dropped ≤ front.length) (rest : List Char) :
    eraseFrom needle dropped (front ++ x :: rest) =
      eraseFrom needle dropped front ++ x :: eraseFrom needle 0 rest := by
  fun_induction eraseFrom needle dropped front with
  | case1 dropped =>
    have hnone : needle.isPrefixOf (x :: rest) = false := by
      rw [← List.nil_append (x :: rest), isPrefixOf_append_cons hx]
      cases needle with
      | nil => exact absurd rfl h
      | cons a needle => rfl
    obtain rfl : dropped = 0 := by simpa using hdropped
    simp [eraseFrom, hnone]
  | case2 c r hfront ih =>
    have hlength : needle.length ≤ r.length + 1 := (List.isPrefixOf_iff_prefix.1 hfront).length_le
    rw [← isPrefixOf_append_cons hx _ rest, List.cons_append] at hfront
    rw [List.cons_append, eraseFrom, if_pos hfront, ih (by omega)]
  | case3 c r hfront ih =>
    rw [← isPrefixOf_append_cons hx _ rest, List.cons_append] at hfront
    rw [List.cons_append, eraseFrom, if_neg hfront, ih (Nat.zero_le _), List.cons_append]
  | case4 dropped c r ih =>
    rw [List.cons_append, eraseFrom, ih (by simpa using hdropped)]

theorem eraseFrom_intercalate (h : needle ≠ []) {x : Char} (hx : x ∉ needle)
    (lines : List (List Char)) :
    eraseFrom needle 0 ([x].intercalate lines) =
      [x].intercalate (lines.map (eraseFrom needle 0)) := by
  induction lines with
  | nil => rfl
  | cons line lines ih =>
    cases lines with
    | nil => simp [List.intercalate]
    | cons next lines =>
      rw [List.intercalate_cons_cons, List.append_assoc, List.singleton_append,
        eraseFrom_append_cons h hx (Nat.zero_le _), ih, List.map_cons, List.map_cons, List.map_cons,
        List.intercalate_cons_cons, List.append_assoc, List.singleton_append]

end SnippetLens.Text
