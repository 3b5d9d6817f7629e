import SnippetLens.NativeCode.Scan
import SnippetLens.Proofs.NativeCode.Pattern

/-!
What a line does to the scan of a native code dump, told region by region.

A scan puts out nothing at the end of its lines, so the items of an append are those of its parts,
each read from the region where the part begins. In every region there are lines that are passed
over. A class header is dispatched in all regions but two: before the listing is opened, and
between a method header and the line that heads its code.
-/

namespace SnippetLens.NativeCode

open Listing

def MethodReport.text (m : MethodReport) : String :=
  "    " ++ m.signature ++ "\n" ++
    String.join (m.instructions.map fun i => "        " ++ i.1 ++ ": " ++ i.2 ++ "\n")

/-- The text of a report: the heading of each class with its methods below, and a blank line between
two methods. -/
def renderReport (classes : List ClassReport) : String :=
  String.join (classes.map fun c =>
    "class " ++ c.name ++ "\n" ++ "\n".intercalate (c.methods.map MethodReport.text))

/-- Texts with a separator between two of them: the first one, and then each with a separator in
front of it. -/
theorem intercalate_singleton_cons {α : Type} (gap : α) (first : List α) (others : List (List α)) :
    [gap].intercalate (first :: others) = first ++ others.flatMap (gap :: ·) := by
  induction others generalizing first with
  | nil => simp [List.intercalate]
  | cons second others ih =>
    rw [List.flatMap_cons, List.intercalate_cons_cons, ih]
    simp

theorem toList_render_method (m : MethodReport) : (render m.items).toList = m.text.toList := by
  simp [render, MethodReport.items, MethodReport.text, Item.render, List.flatMap_map]

theorem toList_render_methods (methods : List MethodReport) :
    (render ([Item.gap].intercalate (methods.map MethodReport.items))).toList =
      ("\n".intercalate (methods.map MethodReport.text)).toList := by
  rw [String.toList_intercalate]
  cases methods with
  | nil => rfl
  | cons m methods =>
    have hnext : ∀ m : MethodReport,
        (render (.gap :: m.items)).toList = '\n' :: m.text.toList := by
      intro m
      rw [← toList_render_method]
      simp [render, Item.render]
    have hfeed : "\n".toList = ['\n'] := rfl
    simp only [List.map_cons, List.map_map, hfeed, intercalate_singleton_cons, render_append,
      toList_render_method, List.flatMap_map]
    congr 1
    induction methods with
    | nil => rfl
    | cons m methods ih =>
      simp only [List.flatMap_cons, render_append, hnext, ih, Function.comp_apply]

theorem render_items (classes : List ClassReport) :
    render (classes.flatMap ClassReport.items) = renderReport classes := by
  apply String.toList_injective
  induction classes with
  | nil => rfl
  | cons c classes ih =>
    have hclass : c.items =
        [.heading c.name] ++ [Item.gap].intercalate (c.methods.map MethodReport.items) := rfl
    rw [List.flatMap_cons, render_append, ih, hclass, render_append, toList_render_methods]
    simp [renderReport, render, Item.render]

/-- Whether some lines are at their end or begin with a class header. -/
def AtClass (lines : List String) : Prop :=
  ∀ line, lines.head? = some line → (classHeader? line).isSome = true

theorem atClass_nil : AtClass [] := by
  simp [AtClass]

theorem atClass_cons {line : String} {name : List Char} (h : classHeader? line = some name)
    (rest : List String) : AtClass (line :: rest) := by
  rintro _ ⟨⟩
  simp [h]

variable (options : FilterOptions)

def regionAfter (region : Region) (lines : List String) : Region :=
  lines.foldl (fun region line => (step rules options region line).1) region

@[simp] theorem regionAfter_nil (region : Region) : regionAfter options region [] = region := rfl

@[simp] theorem regionAfter_cons (region : Region) (line : String) (rest : List String) :
    regionAfter options region (line :: rest) =
      regionAfter options (step rules options region line).1 rest := rfl

@[simp] theorem outputFrom_nil (region : Region) :
    (scanner options).outputFrom region [] = [] := rfl

@[simp] theorem outputFrom_cons (region : Region) (line : String) (rest : List String) :
    (scanner options).outputFrom region (line :: rest) =
      (step rules options region line).2 ++
        (scanner options).outputFrom (step rules options region line).1 rest := rfl

theorem outputFrom_append (region : Region) (stretch rest : List String) :
    (scanner options).outputFrom region (stretch ++ rest) =
      (scanner options).outputFrom region stretch ++
        (scanner options).outputFrom (regionAfter options region stretch) rest := by
  induction stretch generalizing region with
  | nil => simp
  | cons line stretch ih => simp [ih]

theorem condense_eq_render_outputFrom (lines : List String) :
    condense options lines = render ((scanner options).outputFrom .preamble lines) := by
  rw [condense, Scanner.scan_eq_outputFrom]
  rfl

theorem toList_condense_append (front back : List String) :
    (condense options (front ++ back)).toList =
      (condense options front).toList ++
        (render ((scanner options).outputFrom (regionAfter options .preamble front) back)).toList := by
  rw [condense_eq_render_outputFrom, condense_eq_render_outputFrom, outputFrom_append,
    render_append]

/-! ### Single lines -/

section Lines

variable {line : String}

theorem step_outside_of_plain (h : classHeader? line = none) :
    step rules options .outside line = (.outside, []) := by
  simp [step, dispatch, rules, instructionRule, methodRule, classRule, Region.insideClass,
    Region.insideMethod, h]

theorem step_classTop_of_plain (hclass : classHeader? line = none)
    (hmethod : methodHeader? line = none) :
    step rules options .classTop line = (.classTop, []) := by
  simp [step, dispatch, rules, instructionRule, methodRule, classRule, Region.insideClass,
    Region.insideMethod, hclass, hmethod]

theorem step_classTop_of_method {signature : String} (h : methodHeader? line = some signature) :
    step rules options .classTop line = (.beforeCode, [.signature signature]) := by
  simp [step, dispatch, rules, instructionRule, methodRule, Region.insideClass,
    Region.insideMethod, h]

theorem step_beforeCode_of_code (h : headsCode line = true) :
    step rules options .beforeCode line = (.code, []) := by
  simp [step, h]

theorem step_beforeCode_of_plain (h : headsCode line = false) :
    step rules options .beforeCode line = (.beforeCode, []) := by
  simp [step, h]

theorem step_code_of_instruction {i : String × String} (h : instruction? line = some i) :
    step rules options .code line = (.code, [.instruction i.1 i.2]) := by
  simp [step, dispatch, rules, instructionRule, Region.insideMethod, h]

theorem step_code_of_method {signature : String} (h : methodHeader? line = some signature) :
    step rules options .code line = (.beforeCode, [.gap, .signature signature]) := by
  simp [step, dispatch, rules, instructionRule, methodRule, Region.insideClass,
    Region.insideMethod, instruction?_of_methodHeader? h, h]

theorem step_of_class {name : List Char} (h : classHeader? line = some name) {region : Region}
    (hpreamble : region ≠ .preamble) (hbefore : region ≠ .beforeCode) :
    step rules options region line =
      if options.suppression.hides (dotted name) then (.outside, [])
      else (.classTop, [.heading (dotted name)]) := by
  have hmethod : methodHeader? line = none := methodHeader?_of_classHeader? h
  have hinstruction : instruction? line = none := instruction?_of_classHeader? h
  cases region with
  | preamble => exact absurd rfl hpreamble
  | beforeCode => exact absurd rfl hbefore
  | _ =>
    simp [step, dispatch, rules, instructionRule, methodRule, classRule, Region.insideClass,
      Region.insideMethod, h, hmethod, hinstruction]

end Lines

/-- What a line can do in a region: where it leads, and what it puts out. -/
inductive Effect (line : String) : Region → Region → List Item → Prop
  | opens (h : opensListing line = true) : Effect line .preamble .outside []
  | beforeOpening (h : opensListing line = false) : Effect line .preamble .preamble []
  | code (h : headsCode line = true) : Effect line .beforeCode .code []
  | aboveCode (h : headsCode line = false) : Effect line .beforeCode .beforeCode []
  | instruction {i : String × String} (h : instruction? line = some i) :
    Effect line .code .code [.instruction i.1 i.2]
  | firstMethod {signature : String} (h : methodHeader? line = some signature) :
    Effect line .classTop .beforeCode [.signature signature]
  | nextMethod {signature : String} (h : methodHeader? line = some signature) :
    Effect line .code .beforeCode [.gap, .signature signature]
  | hiddenClass {region : Region} {name : List Char} (h : classHeader? line = some name)
    (hpreamble : region ≠ .preamble) (hbefore : region ≠ .beforeCode)
    (hhidden : options.suppression.hides (dotted name) = true) : Effect line region .outside []
  | shownClass {region : Region} {name : List Char} (h : classHeader? line = some name)
    (hpreamble : region ≠ .preamble) (hbefore : region ≠ .beforeCode)
    (hshown : options.suppression.hides (dotted name) = false) :
    Effect line region .classTop [.heading (dotted name)]
  | dropped {region : Region} (h : classHeader? line = none) (hpreamble : region ≠ .preamble)
    (hbefore : region ≠ .beforeCode) : Effect line region region []

theorem effect_step (region : Region) (line : String) :
    Effect options line region (step rules options region line).1
      (step rules options region line).2 := by
  by_cases hpreamble : region = .preamble
  · subst hpreamble
    cases h : opensListing line with
    | true => simpa [step, h] using Effect.opens h
    | false => simpa [step, h] using Effect.beforeOpening h
  by_cases hbefore : region = .beforeCode
  · subst hbefore
    cases h : headsCode line with
    | true => simpa [step, h] using Effect.code h
    | false => simpa [step, h] using Effect.aboveCode h
  cases hclass : classHeader? line with
  | some name =>
    rw [step_of_class options hclass hpreamble hbefore]
    cases hname : options.suppression.hides (dotted name) with
    | true => simpa using Effect.hiddenClass hclass hpreamble hbefore hname
    | false => simpa using Effect.shownClass hclass hpreamble hbefore hname
  | none =>
    have hdropped : Effect options line region region [] := .dropped hclass hpreamble hbefore
    cases region with
    | preamble => exact absurd rfl hpreamble
    | beforeCode => exact absurd rfl hbefore
    | outside => rwa [step_outside_of_plain options hclass]
    | classTop =>
      cases hmethod : methodHeader? line with
      | some signature => exact step_classTop_of_method options hmethod ▸ .firstMethod hmethod
      | none => rwa [step_classTop_of_plain options hclass hmethod]
    | code =>
      cases hinstruction : instruction? line with
      | some i => exact step_code_of_instruction options hinstruction ▸ .instruction hinstruction
      | none =>
        cases hmethod : methodHeader? line with
        | some signature => exact step_code_of_method options hmethod ▸ .nextMethod hmethod
        | none => rwa [step_code_of_plain options hclass hmethod hinstruction]

theorem regionAfter_ne_preamble {region : Region} (h : region ≠ .preamble) (lines : List String) :
    regionAfter options region lines ≠ .preamble := by
  induction lines generalizing region with
  | nil => exact h
  | cons line rest ih =>
    refine ih fun (hpreamble : (step rules options region line).1 = .preamble) => ?_
    have heffect := effect_step options region line
    rw [hpreamble] at heffect
    generalize (step rules options region line).2 = items at heffect
    cases heffect <;> exact h rfl

/-! ### Stretches -/

theorem outputFrom_preamble_append {stretch : List String}
    (h : ∀ line ∈ stretch, opensListing line = false) (rest : List String) :
    (scanner options).outputFrom .preamble (stretch ++ rest) =
      (scanner options).outputFrom .preamble rest := by
  apply Scanner.outputFrom_append_of_passed
  intro line hline
  simp [scanner, scannerOf, step, h line hline]

theorem outputFrom_preamble_of_opens {line : String} (h : opensListing line = true)
    (rest : List String) :
    (scanner options).outputFrom .preamble (line :: rest) =
      (scanner options).outputFrom .outside rest := by
  simp [step, h]

theorem outputFrom_outside_append {stretch : List String}
    (h : ∀ line ∈ stretch, classHeader? line = none) (rest : List String) :
    (scanner options).outputFrom .outside (stretch ++ rest) =
      (scanner options).outputFrom .outside rest :=
  Scanner.outputFrom_append_of_passed _
    (fun line hline => step_outside_of_plain options (h line hline)) rest

/-- What is read from a class header on is the same wherever the header is dispatched. -/
theorem outputFrom_of_atClass {lines : List String} (h : AtClass lines) {region : Region}
    (hpreamble : region ≠ .preamble) (hbefore : region ≠ .beforeCode) :
    (scanner options).outputFrom region lines = (scanner options).outputFrom .outside lines := by
  cases lines with
  | nil => rfl
  | cons line rest =>
    obtain ⟨name, hname⟩ := Option.isSome_iff_exists.1 (h line rfl)
    have houtside : Region.outside ≠ .preamble ∧ Region.outside ≠ .beforeCode := by decide
    rw [outputFrom_cons, outputFrom_cons, step_of_class options hname hpreamble hbefore,
      step_of_class options hname houtside.1 houtside.2]

end SnippetLens.NativeCode
