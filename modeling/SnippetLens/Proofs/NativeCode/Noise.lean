import SnippetLens.Proofs.NativeCode.Regions

/-!
Lines that a native code dump could do without.

No region makes anything of a line that is neither a header nor an instruction and that neither
opens the listing nor heads code: it puts nothing out and leads to no other region. So a dump is
condensed to what its significant lines are condensed to, wherever the others stand and whatever is
around them.
-/

namespace SnippetLens.NativeCode

open Listing

def isSignificant (line : String) : Bool :=
  (classHeader? line).isSome || (methodHeader? line).isSome || (instruction? line).isSome ||
    headsCode line || opensListing line

theorem isSignificant_eq_false_iff {line : String} :
    isSignificant line = false ↔
      classHeader? line = none ∧ methodHeader? line = none ∧ instruction? line = none ∧
        headsCode line = false ∧ opensListing line = false := by
  simp [isSignificant, and_assoc]

variable (options : FilterOptions)

theorem step_of_not_significant {line : String} (h : isSignificant line = false)
    (region : Region) : step rules options region line = (region, []) := by
  obtain ⟨hclass, hmethod, hinstruction, hcode, hopens⟩ := isSignificant_eq_false_iff.1 h
  cases region with
  | preamble => simp [step, hopens]
  | outside => exact step_outside_of_plain options hclass
  | classTop => exact step_classTop_of_plain options hclass hmethod
  | beforeCode => exact step_beforeCode_of_plain options hcode
  | code => exact step_code_of_plain options hclass hmethod hinstruction

theorem outputFrom_filter_isSignificant (region : Region) (lines : List String) :
    (scanner options).outputFrom region (lines.filter isSignificant) =
      (scanner options).outputFrom region lines := by
  induction lines generalizing region with
  | nil => rfl
  | cons line rest ih =>
    cases hline : isSignificant line with
    | true => rw [List.filter_cons_of_pos hline, outputFrom_cons, outputFrom_cons, ih]
    | false =>
      have hskip : ¬isSignificant line = true := by simp [hline]
      rw [List.filter_cons_of_neg hskip, outputFrom_cons, step_of_not_significant options hline, ih,
        List.nil_append]

theorem condense_filter_isSignificant (lines : List String) :
    condense options (lines.filter isSignificant) = condense options lines := by
  rw [condense_eq_render_outputFrom, condense_eq_render_outputFrom,
    outputFrom_filter_isSignificant]

/-- Dumps with the same significant lines are condensed alike. -/
theorem condense_congr_of_significant {lines changed : List String}
    (h : changed.filter isSignificant = lines.filter isSignificant) :
    condense options changed = condense options lines := by
  rw [← condense_filter_isSignificant, h, condense_filter_isSignificant]

/-! ### A noisy dump -/

def bareDump : List String :=
  ["OatDexFile:", "0: LA; (offset=0x0) (type_idx=0)", "  0: void A.f() (dex_method_idx=0)",
    "    CODE: (size=4)", "      0x0: d65f03c0 ret"]

/-- A line in every region that none of them takes for anything. -/
def noisyDump : List String :=
  ["", "OAT HEADER:", "OatDexFile:", "warning: x", "0: LA; (offset=0x0) (type_idx=0)", "",
    "  0: void A.f() (dex_method_idx=0)", "    DEX CODE:", "    CODE: (size=4)", "Class #0 -",
    "      0x0: d65f03c0 ret", "      StackMap[0]"]

theorem condense_noisyDump :
    noisyDump.filter isSignificant = bareDump.filter isSignificant ∧
      condense ⟨.none, false⟩ noisyDump = condense ⟨.none, false⟩ bareDump := by
  have h : noisyDump.filter isSignificant = bareDump.filter isSignificant := by decide +kernel
  exact ⟨h, condense_congr_of_significant _ h⟩

end SnippetLens.NativeCode
