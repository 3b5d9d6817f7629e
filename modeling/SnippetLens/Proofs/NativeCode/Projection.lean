import SnippetLens.Proofs.NativeCode.Regions

/-!
Hiding classes is a projection, where methods have code.

A scan walks through a hidden class and a shown one in different ways: in the shown one it passes
over what stands between a method header and the code of the method, in the hidden one it looks at
every line. If the code of each method is headed before the next class, the scan stands at a class
header in no such stretch, and goes on from the header alike whether the class before it was hidden
or shown.

So a dump is read section by section, a section being a class header and the lines up to the next
one. What a section says is read from its own lines, and what is written is what the sections of
the shown classes say.
-/

namespace SnippetLens.NativeCode

open Listing

def listed (lines : List String) : List String :=
  (lines.dropWhile fun line => !opensListing line).tail

/-- Whether the code of every method is headed before the next class header and the end. -/
def MethodsHaveCode (lines : List String) : Prop :=
  ∀ before header behind, lines = before ++ header :: behind →
    (methodHeader? header).isSome = true →
      ∃ between heading rest, behind = between ++ heading :: rest ∧ headsCode heading = true ∧
        ∀ line ∈ between ++ [heading], classHeader? line = none

/-! ### Sections -/

/-- A class header, and the lines behind it up to the next one. -/
structure Section where
  header : String
  internalName : List Char
  body : List String
  header_reads : classHeader? header = some internalName
  body_plain : ∀ line ∈ body, classHeader? line = none

def Section.lines (c : Section) : List String :=
  c.header :: c.body

theorem exists_sections (lines : List String) :
    ∃ (lead : List String) (sections : List Section),
      lines = lead ++ sections.flatMap Section.lines ∧ ∀ line ∈ lead, classHeader? line = none := by
  induction lines with
  | nil => exact ⟨[], [], rfl, by simp⟩
  | cons line rest ih =>
    obtain ⟨lead, sections, hrest, hlead⟩ := ih
    cases hline : classHeader? line with
    | none => exact ⟨line :: lead, sections, by simp [hrest], by simpa [hline] using hlead⟩
    | some internalName =>
      exact ⟨[], ⟨line, internalName, lead, hline, hlead⟩ :: sections,
        by simp [hrest, Section.lines], by simp⟩

theorem atClass_sections (sections : List Section) : AtClass (sections.flatMap Section.lines) := by
  cases sections with
  | nil => exact atClass_nil
  | cons c sections => exact atClass_cons c.header_reads _

/-- Methods that have code in a dump have it in each part that ends at a class header. -/
theorem MethodsHaveCode.part {before part rest : List String}
    (h : MethodsHaveCode (before ++ (part ++ rest))) (hrest : AtClass rest) :
    MethodsHaveCode part := by
  intro above header behind hpart hheader
  obtain ⟨between, heading, after, hbehind, hheads, hplain⟩ :=
    h (before ++ above) header (behind ++ rest) (by simp [hpart]) hheader
  have hsplit : behind ++ rest = (between ++ [heading]) ++ after := by simpa using hbehind
  -- The stretch up to the code does not reach into the rest, which begins with a class header.
  rcases List.append_eq_append_iff.1 hsplit with ⟨beyond, hstretch, hlines⟩ | ⟨after, hlines, -⟩
  · cases beyond with
    | nil => exact ⟨between, heading, [], by simpa using hstretch.symm, hheads, hplain⟩
    | cons line beyond =>
      have hnone : classHeader? line = none := hplain line (by simp [hstretch])
      have hsome : (classHeader? line).isSome = true := hrest line (by simp [hlines])
      simp [hnone] at hsome
  · exact ⟨between, heading, after, by simpa using hlines, hheads, hplain⟩

/-! ### What a section says -/

/-- What the rest of a class says, read from a place inside it: the instructions that belong to the
method under way, and the methods after it. -/
structure Outline where
  instructions : List (String × String) := []
  methods : List MethodReport := []
  deriving DecidableEq, Repr

namespace Outline

def precededBy : Item → Outline → Outline
  | .instruction address text, o => { o with instructions := (address, text) :: o.instructions }
  | .signature text, o => { methods := ⟨text, o.instructions⟩ :: o.methods }
  | .gap, o | .heading _, o => o

def ofItems (items : List Item) : Outline :=
  items.foldr precededBy {}

def items (o : Outline) : Region → List Item
  | .preamble | .outside => []
  | .classTop => [Item.gap].intercalate (o.methods.map MethodReport.items)
  | .beforeCode | .code =>
    o.instructions.map (fun i => .instruction i.1 i.2) ++
      o.methods.flatMap fun m => .gap :: m.items

end Outline

def outlineFrom (region : Region) (body : List String) : Outline :=
  .ofItems ((scanner {}).outputFrom region body)

def Section.report (c : Section) : ClassReport where
  name := dotted c.internalName
  methods := (outlineFrom .classTop c.body).methods

theorem outlineFrom_cons (region : Region) (line : String) (rest : List String) :
    outlineFrom region (line :: rest) =
      (step rules {} region line).2.foldr Outline.precededBy
        (outlineFrom (step rules {} region line).1 rest) := by
  simp [outlineFrom, Outline.ofItems]

section Body

variable (options : FilterOptions)

/-- One line of a class: all scans go to the same region, and what they put out is what the line
adds to the outline. -/
theorem step_items {line : String} (h : classHeader? line = none) (region : Region) (o : Outline) :
    (step rules options region line).1 = (step rules {} region line).1 ∧
      (step rules options region line).2 ++ o.items (step rules {} region line).1 =
        ((step rules {} region line).2.foldr Outline.precededBy o).items region := by
  cases region with
  | preamble => cases hline : opensListing line <;> simp [step, hline, Outline.items]
  | outside => simp [step_outside_of_plain _ h, Outline.items]
  | classTop =>
    cases hmethod : methodHeader? line with
    | none => simp [step_classTop_of_plain _ h hmethod]
    | some signature =>
      simp only [step_classTop_of_method _ hmethod, Outline.items, Outline.precededBy,
        List.foldr_cons, List.foldr_nil, List.map_cons, intercalate_singleton_cons,
        List.flatMap_map, MethodReport.items, true_and]
      rfl
  | beforeCode =>
    cases hline : headsCode line with
    | false => simp [step_beforeCode_of_plain _ hline]
    | true => simp [step_beforeCode_of_code _ hline, Outline.items]
  | code =>
    cases hinstruction : instruction? line with
    | some i => simp [step_code_of_instruction _ hinstruction, Outline.items, Outline.precededBy]
    | none =>
      cases hmethod : methodHeader? line with
      | none => simp [step_code_of_plain _ h hmethod hinstruction]
      | some signature =>
        simp [step_code_of_method _ hmethod, Outline.items, Outline.precededBy, MethodReport.items]

theorem outputFrom_body {body : List String} (h : ∀ line ∈ body, classHeader? line = none)
    (region : Region) :
    (scanner options).outputFrom region body = (outlineFrom region body).items region := by
  induction body generalizing region with
  | nil => cases region <;> rfl
  | cons line body ih =>
    obtain ⟨hregion, hitems⟩ :=
      step_items options (h line (by simp)) region
        (outlineFrom (step rules {} region line).1 body)
    rw [outputFrom_cons, hregion, ih (fun other hother => h other (by simp [hother])),
      outlineFrom_cons, hitems]

theorem methodHeader?_of_step_eq_beforeCode {region : Region} {line : String}
    (h : (step rules options region line).1 = .beforeCode) :
    region = .beforeCode ∧ headsCode line = false ∨ (methodHeader? line).isSome = true := by
  have heffect := effect_step options region line
  rw [h] at heffect
  generalize (step rules options region line).2 = items at heffect
  cases heffect with
  | aboveCode hplain => exact .inl ⟨rfl, hplain⟩
  | firstMethod hmethod => exact .inr (by simp [hmethod])
  | nextMethod hmethod => exact .inr (by simp [hmethod])
  | dropped _ _ hbefore => exact absurd rfl hbefore

/-- Where methods have code, the lines of a class do not end in front of one. -/
theorem regionAfter_ne_beforeCode {body : List String} (h : MethodsHaveCode body) {region : Region}
    (hregion : region = .beforeCode → ∃ line ∈ body, headsCode line = true) :
    regionAfter options region body ≠ .beforeCode := by
  induction body generalizing region with
  | nil =>
    rintro rfl
    simpa using hregion rfl
  | cons line body ih =>
    have hbody : MethodsHaveCode body :=
      fun before header behind hlines => h (line :: before) header behind (by simp [hlines])
    refine ih hbody fun hnext => ?_
    rcases methodHeader?_of_step_eq_beforeCode options hnext with ⟨rfl, hplain⟩ | hmethod
    · obtain ⟨heading, hheading, hheads⟩ := hregion rfl
      rcases List.mem_cons.1 hheading with rfl | hheading
      · simp [hplain] at hheads
      · exact ⟨heading, hheading, hheads⟩
    · obtain ⟨between, heading, rest, rfl, hheads, -⟩ := h [] line body rfl hmethod
      exact ⟨heading, by simp, hheads⟩

end Body

/-! ### Whole listings -/

section Listings

variable (options : FilterOptions)

/-- What is written for a section: nothing if its class is hidden, and what its lines say if it is
shown. -/
theorem outputFrom_section (c : Section) {rest : List String}
    (hcode : options.suppression.hides c.report.name = false → MethodsHaveCode c.body)
    (hrest : AtClass rest) :
    (scanner options).outputFrom .outside (c.lines ++ rest) =
      ([c.report].filter fun r => !options.suppression.hides r.name).flatMap ClassReport.items ++
        (scanner options).outputFrom .outside rest := by
  have hstep : step rules options .outside c.header = _ :=
    step_of_class options c.header_reads (by decide) (by decide)
  rw [Section.lines, List.cons_append, outputFrom_cons, hstep]
  cases hname : options.suppression.hides (dotted c.internalName) with
  | true => simp [Section.report, hname, outputFrom_outside_append options c.body_plain]
  | false =>
    have hend : regionAfter options .classTop c.body ≠ .beforeCode :=
      regionAfter_ne_beforeCode options (hcode hname) (by simp)
    have hopen : regionAfter options .classTop c.body ≠ .preamble :=
      regionAfter_ne_preamble options (by decide) c.body
    simp only [Bool.false_eq_true, if_false, outputFrom_append,
      outputFrom_body options c.body_plain, outputFrom_of_atClass options hrest hopen hend]
    simp [Section.report, hname, ClassReport.items, Outline.items]

theorem outputFrom_sections (sections : List Section)
    (hcode : ∀ c ∈ sections, options.suppression.hides c.report.name = false →
      MethodsHaveCode c.body) :
    (scanner options).outputFrom .outside (sections.flatMap Section.lines) =
      ((sections.map Section.report).filter fun r => !options.suppression.hides r.name).flatMap
        ClassReport.items := by
  induction sections with
  | nil => rfl
  | cons c sections ih =>
    rw [List.flatMap_cons,
      outputFrom_section options c (hcode c (by simp)) (atClass_sections sections),
      ih fun other hother => hcode other (by simp [hother]), ← List.flatMap_append,
      ← List.filter_append]
    rfl

/-- What is put out depends only on what stands behind the line that opens the listing. -/
theorem outputFrom_listed (lines : List String) :
    (scanner options).outputFrom .preamble lines =
      (scanner options).outputFrom .outside (listed lines) := by
  induction lines with
  | nil => rfl
  | cons line rest ih =>
    cases hline : opensListing line with
    | true => simp [outputFrom_preamble_of_opens options hline, listed, hline]
    | false =>
      have hlisted : listed (line :: rest) = listed rest := by simp [listed, hline]
      have hpassed : ∀ other ∈ [line], opensListing other = false := by simpa using hline
      rw [hlisted, ← ih]
      exact outputFrom_preamble_append options hpassed rest

theorem condense_eq_render_listed (lines : List String) :
    condense options lines = render ((scanner options).outputFrom .outside (listed lines)) := by
  rw [condense_eq_render_outputFrom, outputFrom_listed]

end Listings

/-- The methods of every section have code, if all methods of a listing have. -/
theorem MethodsHaveCode.body {before : List String} {sections : List Section}
    (h : MethodsHaveCode (before ++ sections.flatMap Section.lines)) :
    ∀ c ∈ sections, MethodsHaveCode c.body := by
  induction sections generalizing before with
  | nil => simp
  | cons c sections ih =>
    have hlines : before ++ (c :: sections).flatMap Section.lines =
        (before ++ [c.header]) ++ (c.body ++ sections.flatMap Section.lines) := by
      simp [Section.lines]
    rw [hlines] at h
    intro other hother
    rcases List.mem_cons.1 hother with rfl | hother
    · exact h.part (atClass_sections sections)
    · rw [← List.append_assoc] at h
      exact ih h other hother

/-- Behind methods that have code, a hidden class is passed over as a whole. -/
theorem outputFrom_hidden {options : FilterOptions} {before : List String}
    (h : MethodsHaveCode before) {c : Section}
    (hname : options.suppression.hides (dotted c.internalName) = true) (rest : List String) :
    (scanner options).outputFrom .outside (before ++ (c.lines ++ rest)) =
      (scanner options).outputFrom .outside before ++
        (scanner options).outputFrom .outside rest := by
  have hclass : AtClass (c.lines ++ rest) := atClass_cons c.header_reads _
  have hend : regionAfter options .outside before ≠ .beforeCode :=
    regionAfter_ne_beforeCode options h (by simp)
  have hopen : regionAfter options .outside before ≠ .preamble :=
    regionAfter_ne_preamble options (by decide) before
  have hstep : step rules options .outside c.header = _ :=
    step_of_class options c.header_reads (by decide) (by decide)
  rw [outputFrom_append, outputFrom_of_atClass options hclass hopen hend, Section.lines,
    List.cons_append, outputFrom_cons, hstep, if_pos hname, List.nil_append,
    outputFrom_outside_append options c.body_plain]

/-- Where the methods of a listing have code, what is written is the text of one report without the
hidden classes. The lines of a hidden class have no part in it: with any others behind its header
that head no class, the same is written. -/
theorem condense_eq_renderReport_of_methodsHaveCode {lines : List String}
    (h : MethodsHaveCode (listed lines)) :
    (∃ report : List ClassReport, ∀ options : FilterOptions,
      condense options lines =
        renderReport (report.filter fun c => !options.suppression.hides c.name)) ∧
    ∀ (options : FilterOptions) (changed before : List String) (c d : Section) (rest : List String),
      listed lines = before ++ (c.lines ++ rest) → listed changed = before ++ (d.lines ++ rest) →
        d.header = c.header → options.suppression.hides (dotted c.internalName) = true →
          condense options changed = condense options lines := by
  constructor
  · obtain ⟨lead, sections, hlines, hlead⟩ := exists_sections (listed lines)
    rw [hlines] at h
    refine ⟨sections.map Section.report, fun options => ?_⟩
    rw [condense_eq_render_listed, hlines, outputFrom_outside_append options hlead,
      outputFrom_sections options sections fun c hc _ => h.body c hc, ← render_items]
  · intro options changed before c d rest hlines hchanged hheader hname
    rw [hlines] at h
    have hbefore : MethodsHaveCode before :=
      @MethodsHaveCode.part [] before _ h (atClass_cons c.header_reads _)
    have hsame : d.internalName = c.internalName :=
      Option.some.inj (d.header_reads.symm.trans (hheader ▸ c.header_reads))
    rw [condense_eq_render_listed, condense_eq_render_listed, hlines, hchanged,
      outputFrom_hidden hbefore hname, outputFrom_hidden hbefore (hsame ▸ hname)]

/-! ### A listing with a class of each kind -/

theorem methodsHaveCode_nil : MethodsHaveCode [] := by
  intro before header behind hlines
  simp at hlines

theorem MethodsHaveCode.cons {line : String} {rest : List String} (h : MethodsHaveCode rest)
    (hline : (methodHeader? line).isSome = true →
      ∃ between heading after, rest = between ++ heading :: after ∧ headsCode heading = true ∧
        ∀ other ∈ between ++ [heading], classHeader? other = none) :
    MethodsHaveCode (line :: rest) := by
  intro before header behind hlines hheader
  cases before with
  | nil =>
    obtain ⟨rfl, rfl⟩ := List.cons.inj hlines
    exact hline hheader
  | cons first before =>
    obtain ⟨-, rfl⟩ := List.cons.inj hlines
    exact h before header behind rfl hheader

theorem MethodsHaveCode.cons_plain {line : String} {rest : List String}
    (hline : methodHeader? line = none) (h : MethodsHaveCode rest) :
    MethodsHaveCode (line :: rest) :=
  h.cons fun hmethod => by simp [hline] at hmethod

def twoClasses : List String :=
  ["OatDexFile:", "0: Lkotlin/A; (offset=0x1) (type_idx=1)", "  0: void f() (dex_method_idx=0)",
    "    CODE: (size=4)", "1: La/B; (offset=0x2) (type_idx=2)", "  0: int g() (dex_method_idx=1)",
    "    CODE: (size=4)", "      0x00001030: 2a0103e0\tmov w0, w1"]

theorem condense_twoClasses :
    MethodsHaveCode (listed twoClasses) ∧
    (∃ report : List ClassReport, ∀ options : FilterOptions,
      condense options twoClasses =
        renderReport (report.filter fun c => !options.suppression.hides c.name)) ∧
    ∀ (options : FilterOptions) (changed before : List String) (c d : Section) (rest : List String),
      listed twoClasses = before ++ (c.lines ++ rest) →
        listed changed = before ++ (d.lines ++ rest) → d.header = c.header →
          options.suppression.hides (dotted c.internalName) = true →
            condense options changed = condense options twoClasses := by
  have h : MethodsHaveCode (listed twoClasses) := by
    have hlisted : listed twoClasses = twoClasses.tail := by decide +kernel
    rw [hlisted, twoClasses, List.tail_cons]
    have hcode : headsCode "    CODE: (size=4)" = true := by decide +kernel
    have hplain : ∀ other ∈ [] ++ ["    CODE: (size=4)"], classHeader? other = none := by
      decide +kernel
    have hlast : MethodsHaveCode ["    CODE: (size=4)", "      0x00001030: 2a0103e0\tmov w0, w1"] :=
      .cons_plain (by decide +kernel) (.cons_plain (by decide +kernel) methodsHaveCode_nil)
    refine .cons_plain (by decide +kernel) (.cons ?_ fun _ => ⟨[], _, _, rfl, hcode, hplain⟩)
    exact .cons_plain (by decide +kernel) (.cons_plain (by decide +kernel)
      (.cons hlast fun _ => ⟨[], _, _, rfl, hcode, hplain⟩))
  exact ⟨h, condense_eq_renderReport_of_methodsHaveCode h⟩

end SnippetLens.NativeCode
