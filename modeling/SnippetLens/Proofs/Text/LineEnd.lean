import SnippetLens.Text.Match
import SnippetLens.Text.Search

/-!
Patterns that do not see a character at the end of a line.

A recogniser that is built from keywords, runs and blanks needs something to go on with, so it fails
at the end of the line; and one more character there, which no keyword has, makes no difference to
it but for what is left behind the match. This is kept by every way to put recognisers together, so
it holds of a whole pattern by its shape, unless the pattern takes the rest of the line.
-/

namespace SnippetLens.Text

/-- Whether a recogniser fails at the end of a line and overlooks a character there, which `f` puts
behind what is left. -/
structure Overlooks {α : Type} (end? : Char) (f : α → α) (next : List Char → Option α) : Prop where
  nil : next [] = none
  concat : ∀ cs, next (cs ++ [end?]) = (next cs).map f

theorem toList_return (line : String) : (line ++ "\r").toList = line.toList ++ ['\r'] := by
  rw [String.toList_append]
  rfl

theorem isSome_after? (lead cs : List Char) : (after? lead cs).isSome = lead.isPrefixOf cs := by
  rw [Bool.eq_iff_iff, Option.isSome_iff_exists, List.isPrefixOf_iff_prefix]
  exact exists_congr fun rest => after?_eq_some_iff.trans eq_comm

namespace Overlooks

variable {α : Type} {r : Char} {f : α → α} {next : List Char → Option α}

theorem singleton (h : Overlooks r f next) : next [r] = none := by
  have hconcat := h.concat []
  rwa [h.nil] at hconcat

theorem isSome_concat (h : Overlooks r f next) (cs : List Char) :
    (next (cs ++ [r])).isSome = (next cs).isSome := by
  rw [h.concat, Option.isSome_map]

theorem bind_some {β : Type} {g : α → β} {f' : β → β} (h : Overlooks r f next)
    (hg : ∀ a, g (f a) = f' (g a)) :
    Overlooks r f' fun cs => (next cs).bind fun a => some (g a) where
  nil := by rw [h.nil, Option.bind_none]
  concat cs := by
    rw [h.concat]
    cases next cs with
    | none => rfl
    | some a => exact congrArg some (hg a)

/-! ### Keywords -/

theorem after?_concat {lead : List Char} (hr : r ∉ lead) (cs : List Char) :
    after? lead (cs ++ [r]) = (after? lead cs).map (· ++ [r]) := by
  fun_induction after? lead cs with
  | case1 cs => simp [after?]
  | case2 a lead =>
    have ha : a ≠ r := (List.ne_and_not_mem_of_not_mem_cons hr).1.symm
    simp [after?, ha]
  | case3 a lead cs ih =>
    have hlead := (List.ne_and_not_mem_of_not_mem_cons hr).2
    simpa [after?] using ih hlead
  | case4 a lead c cs hac => simp [after?, hac]

theorem after?_bind (h : Overlooks r f next) {lead : List Char} (hr : r ∉ lead)
    (hlead : lead ≠ []) : Overlooks r f fun cs => (after? lead cs).bind next where
  nil := by
    cases lead with
    | nil => exact absurd rfl hlead
    | cons a lead => rfl
  concat cs := by
    rw [after?_concat hr]
    cases after? lead cs with
    | none => rfl
    | some rest => exact h.concat rest

theorem after? {lead : List Char} (hr : r ∉ lead) (hlead : lead ≠ []) :
    Overlooks r (· ++ [r]) (after? lead) where
  nil := by
    cases lead with
    | nil => exact absurd rfl hlead
    | cons a lead => rfl
  concat := after?_concat hr

theorem isPrefixOf_concat {lead : List Char} (hr : r ∉ lead) (cs : List Char) :
    lead.isPrefixOf (cs ++ [r]) = lead.isPrefixOf cs := by
  rw [Bool.eq_iff_iff, List.isPrefixOf_iff_prefix, List.isPrefixOf_iff_prefix]
  refine ⟨fun h => ?_, fun h => h.trans (List.prefix_append cs [r])⟩
  rcases List.prefix_concat_iff.1 h with rfl | h
  · simp at hr
  · exact h

theorem occursIn_concat {needle : List Char} (hr : r ∉ needle) (cs : List Char) :
    occursIn needle (cs ++ [r]) = occursIn needle cs := by
  induction cs with
  | nil =>
    have hnil := isPrefixOf_concat hr []
    rw [List.nil_append] at hnil ⊢
    cases needle <;> simp [occursIn, hnil]
  | cons c cs ih =>
    have hcons := isPrefixOf_concat hr (c :: cs)
    rw [List.cons_append] at hcons ⊢
    rw [occursIn, occursIn, hcons, ih]

/-! ### Runs and blanks -/

theorem dropWhile_concat_of_nil {p : Char → Bool} {cs : List Char} (h : cs.dropWhile p = []) :
    (cs ++ [r]).dropWhile p = [] ∨ (cs ++ [r]).dropWhile p = [r] := by
  rw [List.dropWhile_append, h]
  by_cases hr : p r = true <;> simp [hr]

theorem dropWhile_concat_of_ne_nil {p : Char → Bool} {cs : List Char} (h : cs.dropWhile p ≠ []) :
    (cs ++ [r]).dropWhile p = cs.dropWhile p ++ [r] ∧
      (cs ++ [r]).takeWhile p = cs.takeWhile p := by
  have hlength : (cs.takeWhile p).length ≠ cs.length := fun hlength => by
    have hall := congrArg List.length (List.takeWhile_append_dropWhile (p := p) (l := cs))
    rw [List.length_append, hlength] at hall
    exact h (List.eq_nil_of_length_eq_zero (by omega))
  rw [List.dropWhile_append, List.takeWhile_append, if_neg hlength]
  simp [h]

theorem run?_bind {β : Type} (p : Char → Bool) {f : β → β} {next : List Char × List Char → Option β}
    (h : ∀ run, Overlooks r f fun cs => next (run, cs)) :
    Overlooks r f fun cs => (run? p cs).bind next where
  nil := rfl
  concat cs := by
    have hnone : ∀ {cs : List Char}, (∀ run, next (run, cs.dropWhile p) = none) →
        (run? p cs).bind next = none := by
      intro cs hcs
      unfold run?
      split
      · rfl
      · exact hcs _
    -- A run up to the end of the line leaves nothing, or the one character, for what goes on.
    by_cases hnil : cs.dropWhile p = []
    · have hleft : ∀ run, next (run, (cs ++ [r]).dropWhile p) = none := fun run => by
        rcases dropWhile_concat_of_nil hnil (r := r) with hend | hend
        · rw [hend]
          exact (h run).nil
        · rw [hend]
          exact (h run).singleton
      rw [hnone hleft, hnone fun run => hnil ▸ (h run).nil]
      rfl
    · obtain ⟨hdrop, htake⟩ := dropWhile_concat_of_ne_nil hnil (r := r)
      unfold run?
      rw [hdrop, htake]
      split
      · rfl
      · exact (h _).concat _

theorem afterRun (p : Char → Bool) (h : Overlooks r f next) :
    Overlooks r f fun cs => (run? p cs).bind fun run => next run.2 :=
  run?_bind p fun _ => h

theorem dropBlanks (h : Overlooks r f next) : Overlooks r f fun cs => next (dropBlanks cs) where
  nil := h.nil
  concat cs := by
    by_cases hnil : cs.dropWhile isBlank = []
    · have hleft : next (Text.dropBlanks cs) = none := by
        rw [Text.dropBlanks, hnil, h.nil]
      rw [hleft, Text.dropBlanks]
      rcases dropWhile_concat_of_nil hnil (r := r) with hend | hend
      · rw [hend, h.nil]
        rfl
      · rw [hend, h.singleton]
        rfl
    · rw [Text.dropBlanks, (dropWhile_concat_of_ne_nil hnil).1, h.concat]
      rfl

theorem afterBlanks (h : Overlooks r f next) : Overlooks r f (afterBlanks next) where
  nil := h.nil
  concat cs := by
    induction cs with
    | nil => simp [Text.afterBlanks, h.nil, h.singleton]
    | cons c cs ih =>
      have hnow := h.concat (c :: cs)
      rw [List.cons_append] at hnow ⊢
      rw [Text.afterBlanks, Text.afterBlanks, ih, hnow]
      split
      · rw [Option.map_or]
      · rfl

theorem afterBlanks1 (h : Overlooks r f next) : Overlooks r f (afterBlanks1 next) where
  nil := rfl
  concat cs := by
    cases cs with
    | nil => simp [Text.afterBlanks1, Text.afterBlanks, h.nil]
    | cons c cs =>
      rw [List.cons_append, Text.afterBlanks1, Text.afterBlanks1, h.afterBlanks.concat]
      split <;> rfl

/-! ### Stretches -/

theorem leftmost (h : Overlooks r f next) : Overlooks r f (leftmost next) where
  nil := h.nil
  concat cs := by
    induction cs with
    | nil => simp [Text.leftmost, h.nil, h.singleton]
    | cons c cs ih =>
      have hnow := h.concat (c :: cs)
      rw [List.cons_append] at hnow ⊢
      rw [Text.leftmost, Text.leftmost, ih, hnow, Option.map_or]

theorem longestBefore_concat {closing : List Char} (hr : r ∉ closing) (hclosing : closing ≠ [])
    (cs : List Char) : longestBefore closing (cs ++ [r]) = longestBefore closing cs := by
  induction cs with
  | nil =>
    have hnil := isPrefixOf_concat hr []
    rw [List.nil_append] at hnil ⊢
    cases closing with
    | nil => exact absurd rfl hclosing
    | cons a closing => simp [longestBefore, hnil]
  | cons c cs ih =>
    have hcons := isPrefixOf_concat hr (c :: cs)
    rw [List.cons_append] at hcons ⊢
    rw [longestBefore, longestBefore, ih, hcons]

theorem longestBefore1 {closing : List Char} (hr : r ∉ closing) (hclosing : closing ≠ []) :
    Overlooks r id (longestBefore1 closing) where
  nil := rfl
  concat cs := by
    cases cs with
    | nil =>
      have hempty : closing.isEmpty = false := by simpa using hclosing
      simp [Text.longestBefore1, longestBefore, hempty]
    | cons c cs =>
      rw [List.cons_append, Text.longestBefore1, Text.longestBefore1,
        longestBefore_concat hr hclosing, Option.map_id]
      rfl

theorem shortestBefore1 {next : List Char → Bool} (hnil : next [] = false)
    (hnext : ∀ cs, next (cs ++ [r]) = next cs) : Overlooks r id (shortestBefore1 next) where
  nil := rfl
  concat cs := by
    rw [Option.map_id, id]
    induction cs with
    | nil => simp [Text.shortestBefore1, hnil]
    | cons c cs ih => rw [List.cons_append, Text.shortestBefore1, Text.shortestBefore1, hnext, ih]

end Overlooks

end SnippetLens.Text
