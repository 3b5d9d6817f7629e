import SnippetLens.Proofs.Bytecode.Pattern
import SnippetLens.Proofs.NativeCode.Regions
import SnippetLens.Proofs.Text.LineEnd

/-!
A carriage return at the end of the last line of a native code dump.

As in a bytecode dump, only the text of an instruction runs to the end of its line. The blanks
before the text may take the carriage return up, so an instruction can be the same with it and
without it; the condensed listing shows the carriage return exactly if the last line stands in the
code of a method and is another instruction with it.
-/

namespace SnippetLens.NativeCode

open Listing Text

/-! ### Patterns that overlook it -/

theorem opensListing_return (line : String) :
    opensListing (line ++ "\r") = opensListing line := by
  have hmark : Overlooks '\r' (· ++ ['\r']) (after? "OatDexFile:".toList) :=
    Overlooks.after? (by decide) (by decide)
  rw [opensListing, opensListing, ← isSome_after?, ← isSome_after?, toList_return]
  exact hmark.dropBlanks.isSome_concat _

theorem headsCode_return (line : String) : headsCode (line ++ "\r") = headsCode line := by
  rw [headsCode, headsCode, contains, contains, toList_return]
  exact Overlooks.occursIn_concat (by decide) _

theorem classHeader?_return (line : String) :
    classHeader? (line ++ "\r") = classHeader? line := by
  have hend : ∀ name : List Char, Overlooks '\r' id
      fun cs => (after? [')'] cs).bind fun _ => some name :=
    fun name => (Overlooks.after? (by decide) (by decide)).bind_some fun _ => rfl
  have htype := fun name => ((hend name).afterRun isDigit).after?_bind
    (by decide : '\r' ∉ ") (type_idx=".toList) (by decide)
  have hoffset := fun name => ((htype name).afterRun isHexDigit).after?_bind
    (by decide : '\r' ∉ "; (offset=0x".toList) (by decide)
  have hname : Overlooks '\r' id fun cs => (run? (· != ';') cs).bind fun name =>
      (after? "; (offset=0x".toList name.2).bind fun rest => (run? isHexDigit rest).bind fun o =>
        (after? ") (type_idx=".toList o.2).bind fun type => (run? isDigit type).bind fun t =>
          (after? [')'] t.2).bind fun _ => some name.1 :=
    Overlooks.run?_bind (· != ';') hoffset
  have hheader := (hname.after?_bind (by decide : '\r' ∉ ": L".toList) (by decide)).afterRun isDigit
  have heq : ∀ line, classHeader? line = (run? isDigit line.toList).bind fun index =>
      (after? ": L".toList index.2).bind fun cs => (run? (· != ';') cs).bind fun name =>
      (after? "; (offset=0x".toList name.2).bind fun rest => (run? isHexDigit rest).bind fun o =>
        (after? ") (type_idx=".toList o.2).bind fun type => (run? isDigit type).bind fun t =>
          (after? [')'] t.2).bind fun _ => some name.1 := fun _ => rfl
  rw [heq, heq, toList_return, hheader.concat, Option.map_id, id]

theorem overlooks_methodIndex : Overlooks '\r' (· ++ ['\r']) (afterBlanks1 fun cs =>
    (after? "(dex_method_idx=".toList cs).bind fun index => (run? isDigit index).bind fun number =>
      after? [')'] number.2) := by
  have hclose : Overlooks '\r' (· ++ ['\r']) (after? [')']) :=
    Overlooks.after? (by decide) (by decide)
  have hindex := (hclose.afterRun isDigit).after?_bind
    (by decide : '\r' ∉ "(dex_method_idx=".toList) (by decide)
  exact hindex.afterBlanks1

theorem isMethodIndex_concat (cs : List Char) :
    isMethodIndex (cs ++ ['\r']) = isMethodIndex cs :=
  overlooks_methodIndex.isSome_concat cs

theorem methodHeader?_return (line : String) :
    methodHeader? (line ++ "\r") = methodHeader? line := by
  have hsignature := (Overlooks.shortestBefore1 rfl isMethodIndex_concat).afterBlanks1
  have hcolon := (hsignature.after?_bind (by decide : '\r' ∉ [':']) (by decide)).afterRun isDigit
  have heq : ∀ line, methodHeader? line =
      (afterBlanks1 (fun cs => (run? isDigit cs).bind fun number =>
        (after? [':'] number.2).bind (afterBlanks1 (shortestBefore1 isMethodIndex)))
          line.toList).bind fun signature => some (String.ofList signature) := fun _ => rfl
  rw [heq, heq, toList_return, hcolon.afterBlanks1.concat, Option.map_id, id]

/-! ### Instructions -/

theorem run?_concat {p : Char → Bool} {r : Char} (hr : p r = false) {cs run rest : List Char}
    (h : run? p cs = some (run, rest)) : run? p (cs ++ [r]) = some (run, rest ++ [r]) := by
  have htake : (cs ++ [r]).takeWhile p = cs.takeWhile p := by
    rw [List.takeWhile_append]
    split_ifs with hlength
    · have hall := (List.takeWhile_prefix p).eq_of_length hlength
      simp [hr, hall]
    · rfl
  have hdrop : (cs ++ [r]).dropWhile p = cs.dropWhile p ++ [r] := by
    rw [List.dropWhile_append]
    split_ifs <;> simp_all
  unfold run? at h ⊢
  rw [htake, hdrop]
  split at h
  · cases h
  · cases h
    rfl

/-- What fails in front of a blank is tried at one place behind the blanks, with the carriage return
as without it. -/
theorem afterBlanks1_concat {α : Type} {next : List Char → Option α}
    (hblank : ∀ c r, isBlank c = true → next (c :: r) = none) (hnil : next [] = none) (r : Char)
    {cs : List Char} {a : α} (h : afterBlanks1 next cs = some a) :
    ∃ rest, next rest = some a ∧ afterBlanks1 next (cs ++ [r]) = next (rest ++ [r]) := by
  cases cs with
  | nil => cases h
  | cons c cs =>
    rw [afterBlanks1] at h
    split at h
    · rename_i hc
      rw [afterBlanks_eq_dropBlanks hblank] at h
      refine ⟨dropBlanks cs, h, ?_⟩
      have hne : cs.dropWhile isBlank ≠ [] := fun hempty => by
        rw [dropBlanks, hempty, hnil] at h
        cases h
      rw [List.cons_append, afterBlanks1, if_pos hc, afterBlanks_eq_dropBlanks hblank, dropBlanks,
        (Overlooks.dropWhile_concat_of_ne_nil hne).1, dropBlanks]
    · cases h

theorem isSome_restOfLine1_return {cs : List Char}
    (h : (afterBlanks1 restOfLine1 cs).isSome = true) :
    (afterBlanks1 restOfLine1 (cs ++ ['\r'])).isSome = true := by
  have hhere : ∀ cs, (restOfLine1 cs).isSome = true →
      (restOfLine1 (cs ++ ['\r'])).isSome = true := by
    intro cs hcs
    unfold restOfLine1 at hcs ⊢
    split at hcs
    · cases hcs
    · simp_all
  have hbehind : ∀ cs, (afterBlanks restOfLine1 cs).isSome = true →
      (afterBlanks restOfLine1 (cs ++ ['\r'])).isSome = true := by
    intro cs hcs
    induction cs with
    | nil => cases hcs
    | cons c cs ih =>
      have hnow := hhere (c :: cs)
      rw [List.cons_append] at hnow ⊢
      unfold afterBlanks at hcs ⊢
      split_ifs at hcs ⊢
      · rw [Option.isSome_or, Bool.or_eq_true] at hcs ⊢
        exact hcs.imp ih hnow
      · exact hnow hcs
  cases cs with
  | nil => cases h
  | cons c cs =>
    by_cases hc : isBlank c = true
    · rw [afterBlanks1, if_pos hc] at h
      rw [List.cons_append, afterBlanks1, if_pos hc]
      exact hbehind cs h
    · rw [afterBlanks1, if_neg hc] at h
      cases h

def text? (cs : List Char) : Option (List Char) :=
  (run? isHexDigit cs).bind fun word => afterBlanks1 restOfLine1 word.2

def coded? (cs : List Char) : Option (List Char × List Char) :=
  (after? "0x".toList cs).bind fun rest => (run? isHexDigit rest).bind fun digits =>
    (after? [':'] digits.2).bind fun rest => (afterBlanks1 text? rest).bind fun text =>
      some ("0x".toList ++ digits.1, text)

theorem instruction?_eq (line : String) :
    instruction? line = (afterBlanks1 coded? line.toList).bind fun i =>
      some (String.ofList i.1, String.ofList i.2) := rfl

theorem text?_of_isBlank (c : Char) (r : List Char) (hc : isBlank c = true) :
    text? (c :: r) = none := by
  simp [text?, run?, Bytecode.isHexDigit_of_isBlank hc]

theorem coded?_of_isBlank (c : Char) (r : List Char) (hc : isBlank c = true) :
    coded? (c :: r) = none := by
  have hzero : '0' ≠ c := by
    rintro rfl
    exact absurd hc (by decide)
  simp [coded?, after?, hzero]

theorem exists_text?_return {cs text : List Char} (h : text? cs = some text) :
    ∃ text, text? (cs ++ ['\r']) = some text := by
  obtain ⟨⟨word, rest⟩, hword, hrest⟩ := Option.bind_eq_some_iff.1 h
  have hsome := isSome_restOfLine1_return (Option.isSome_of_eq_some hrest)
  rw [text?, run?_concat (by decide) hword]
  exact Option.isSome_iff_exists.1 hsome

theorem exists_coded?_return {cs address text : List Char} (h : coded? cs = some (address, text)) :
    ∃ text, coded? (cs ++ ['\r']) = some (address, text) := by
  obtain ⟨lead, hlead, h⟩ := Option.bind_eq_some_iff.1 h
  obtain ⟨digits, hdigits, h⟩ := Option.bind_eq_some_iff.1 h
  obtain ⟨rest, hrest, h⟩ := Option.bind_eq_some_iff.1 h
  obtain ⟨text, htext, h⟩ := Option.bind_eq_some_iff.1 h
  cases h
  obtain ⟨behind, hbehind, hconcat⟩ := afterBlanks1_concat text?_of_isBlank rfl '\r' htext
  obtain ⟨longer, hlonger⟩ := exists_text?_return hbehind
  refine ⟨longer, ?_⟩
  rw [coded?, Overlooks.after?_concat (by decide), hlead, Option.map_some, Option.bind_some,
    run?_concat (by decide) hdigits, Option.bind_some, Overlooks.after?_concat (by decide), hrest,
    Option.map_some, Option.bind_some, hconcat, hlonger]
  rfl

theorem instruction?_return {line : String} {i : String × String} (h : instruction? line = some i) :
    ∃ text, instruction? (line ++ "\r") = some (i.1, text) := by
  rw [instruction?_eq, Option.bind_eq_some_iff] at h
  obtain ⟨⟨address, text⟩, hline, hi⟩ := h
  obtain ⟨rest, hrest, hconcat⟩ := afterBlanks1_concat coded?_of_isBlank rfl '\r' hline
  obtain ⟨longer, hlonger⟩ := exists_coded?_return hrest
  cases hi
  exact ⟨String.ofList longer, by rw [instruction?_eq, toList_return, hconcat, hlonger]; rfl⟩

/-! ### The last line of a scan -/

variable (options : FilterOptions)

theorem dispatch_return {region : Region} {line : String}
    (h : region = .code → instruction? (line ++ "\r") = instruction? line) :
    dispatch rules options region (line ++ "\r") = dispatch rules options region line := by
  have hinstruction : (if instructionRule.inForce region then
        instructionRule.apply options region (line ++ "\r") else none) =
      (if instructionRule.inForce region then
        instructionRule.apply options region line else none) := by
    cases region with
    | code => exact congrArg (Option.map fun i => (Region.code, [Item.instruction i.1 i.2])) (h rfl)
    | _ => rfl
  have hmethod : methodRule.apply options region (line ++ "\r") =
      methodRule.apply options region line := by
    simp only [methodRule, methodHeader?_return]
  have hclass : classRule.apply options region (line ++ "\r") =
      classRule.apply options region line := by
    simp only [classRule, classHeader?_return]
  simp only [dispatch, rules, List.findSome?_cons, List.findSome?_nil, hinstruction, hmethod,
    hclass]

theorem step_return {region : Region} {line : String}
    (h : region = .code → instruction? (line ++ "\r") = instruction? line) :
    step rules options region (line ++ "\r") = step rules options region line := by
  have hdispatch := dispatch_return options h
  cases region with
  | preamble => simp only [step, opensListing_return]
  | beforeCode => simp only [step, headsCode_return]
  | _ => simp only [step, hdispatch]

/-- Whether the last line stands in the code of a method and is another instruction once a carriage
return ends it. -/
def ShowsReturn (front : List String) (line : String) : Prop :=
  regionAfter options .preamble front = .code ∧ instruction? (line ++ "\r") ≠ instruction? line

theorem condense_return_eq_iff (front : List String) (line : String) :
    condense options (front ++ [line ++ "\r"]) = condense options (front ++ [line]) ↔
      ¬ShowsReturn options front line := by
  have hcondense : ∀ last, (condense options (front ++ [last])).toList =
      (condense options front).toList ++
        (render (step rules options (regionAfter options .preamble front) last).2).toList := by
    intro last
    rw [toList_condense_append, outputFrom_cons, outputFrom_nil, List.append_nil]
  rw [← String.toList_inj, hcondense, hcondense, List.append_cancel_left_eq]
  constructor
  · rintro heq ⟨hcode, hne⟩
    rw [hcode] at heq
    -- The line is an instruction with the carriage return: else it is none without it, as before.
    obtain ⟨i, hi⟩ : ∃ i, instruction? (line ++ "\r") = some i := by
      cases hreturn : instruction? (line ++ "\r") with
      | some i => exact ⟨i, rfl⟩
      | none =>
        cases hline : instruction? line with
        | none => exact absurd (hreturn.trans hline.symm) hne
        | some i =>
          obtain ⟨text, htext⟩ := instruction?_return hline
          simp [hreturn] at htext
    rw [step_code_of_instruction options hi] at heq
    cases hline : instruction? line with
    | some plain =>
      obtain ⟨text, htext⟩ := instruction?_return hline
      obtain rfl : i = (plain.1, text) := Option.some.inj (hi.symm.trans htext)
      rw [step_code_of_instruction options hline] at heq
      have htexts : text = plain.2 := String.toList_inj.1 (by simpa [render, Item.render] using heq)
      exact hne (by rw [hi, hline, htexts])
    | none =>
      have heffect := effect_step options .code line
      generalize (step rules options .code line).2 = items at heq heffect
      generalize (step rules options .code line).1 = region at heffect
      -- No other item begins with a blank.
      cases heffect with
      | instruction h => simp [hline] at h
      | _ => simp [render, Item.render] at heq
  · intro hnot
    rw [step_return options fun hcode => not_not.1 fun hne => hnot ⟨hcode, hne⟩]

end SnippetLens.NativeCode
