import SnippetLens.Proofs.NativeCode.Regions

/-!
Well-formed native code dumps, and what the scan recovers from them.

A well-formed dump is a tree: what stands before the listing, the line that opens it, and then class
blocks. Of a class that is hidden nothing is asked but that its lines head no class. A class that is
shown is made of method blocks, and a method block has the line that heads its code: what stands
above that line is never read as an instruction, and what stands below it is.

The proof goes from the leaves to the root. The line behind a block is dispatched, since a block
ends in the code of its last method or, without methods, at the top of its class.
-/

namespace SnippetLens.NativeCode

open Listing

/-! ### The tree of a well-formed dump -/

structure HeadsNothing (line : String) : Prop where
  noClass : classHeader? line = none
  noMethod : methodHeader? line = none

/-- A method: its header, the lines above its code, the line that heads its code, and its code. -/
structure MethodBlock where
  header : String
  signature : String
  preface : List String
  heading : String
  code : List String
  header_reads : methodHeader? header = some signature
  preface_plain : ∀ line ∈ preface, HeadsNothing line ∧ headsCode line = false
  heading_heads : headsCode heading = true
  code_plain : ∀ line ∈ code, HeadsNothing line

/-- A class, as it stands in a dump that is read with the classes of `s` hidden. -/
inductive ClassBlock (s : Suppression) where
  | hidden (header : String) (internalName : List Char) (lines : List String)
    (header_reads : classHeader? header = some internalName)
    (name_hidden : s.hides (dotted internalName) = true)
    (lines_plain : ∀ line ∈ lines, classHeader? line = none)
  | shown (header : String) (internalName : List Char) (properties : List String)
    (methods : List MethodBlock) (header_reads : classHeader? header = some internalName)
    (name_shown : s.hides (dotted internalName) = false)
    (properties_plain : ∀ line ∈ properties, HeadsNothing line)

/-- A dump: lines before the one that opens the listing, that line, lines before the first class,
and the classes. -/
structure WellFormedDump (s : Suppression) where
  preamble : List String
  opening : String
  lead : List String
  classes : List (ClassBlock s)
  preamble_plain : ∀ line ∈ preamble, opensListing line = false
  opening_opens : opensListing opening = true
  lead_plain : ∀ line ∈ lead, classHeader? line = none

variable {s : Suppression}

/-! ### Its lines and its report -/

def MethodBlock.lines (b : MethodBlock) : List String :=
  b.header :: (b.preface ++ b.heading :: b.code)

def MethodBlock.report (b : MethodBlock) : MethodReport where
  signature := b.signature
  instructions := b.code.filterMap instruction?

def ClassBlock.lines : ClassBlock s → List String
  | .hidden header _ lines .. => header :: lines
  | .shown header _ properties methods .. =>
    header :: (properties ++ methods.flatMap MethodBlock.lines)

def ClassBlock.report? : ClassBlock s → Option ClassReport
  | .hidden .. => none
  | .shown _ internalName _ methods .. =>
    some ⟨dotted internalName, methods.map MethodBlock.report⟩

def WellFormedDump.lines (d : WellFormedDump s) : List String :=
  d.preamble ++ d.opening :: (d.lead ++ d.classes.flatMap ClassBlock.lines)

def WellFormedDump.report (d : WellFormedDump s) : List ClassReport :=
  d.classes.filterMap ClassBlock.report?

/-! ### Methods -/

section Methods

variable (options : FilterOptions)

theorem outputFrom_classTop_append {stretch : List String} (h : ∀ line ∈ stretch, HeadsNothing line)
    (rest : List String) :
    (scanner options).outputFrom .classTop (stretch ++ rest) =
      (scanner options).outputFrom .classTop rest :=
  Scanner.outputFrom_append_of_passed _
    (fun line hline => step_classTop_of_plain options (h line hline).1 (h line hline).2) rest

theorem outputFrom_beforeCode_append {stretch : List String}
    (h : ∀ line ∈ stretch, headsCode line = false) (rest : List String) :
    (scanner options).outputFrom .beforeCode (stretch ++ rest) =
      (scanner options).outputFrom .beforeCode rest :=
  Scanner.outputFrom_append_of_passed _
    (fun line hline => step_beforeCode_of_plain options (h line hline)) rest

/-- The instructions among the lines of a code are put out, and nothing else. -/
theorem outputFrom_code_append {code : List String} (h : ∀ line ∈ code, HeadsNothing line)
    (rest : List String) :
    (scanner options).outputFrom .code (code ++ rest) =
      (code.filterMap instruction?).map (fun i => .instruction i.1 i.2) ++
        (scanner options).outputFrom .code rest := by
  induction code with
  | nil => simp
  | cons line code ih =>
    have hrest := ih fun other hother => h other (by simp [hother])
    obtain ⟨hclass, hmethod⟩ := h line (by simp)
    rw [List.cons_append, outputFrom_cons]
    cases hline : instruction? line with
    | some i => simp [step_code_of_instruction options hline, hline, hrest]
    | none => simp [step_code_of_plain options hclass hmethod hline, hline, hrest]

/-- What is read behind the header of a method: its instructions, and then what follows its code. -/
theorem outputFrom_method_body (b : MethodBlock) (rest : List String) :
    (scanner options).outputFrom .beforeCode (b.preface ++ b.heading :: (b.code ++ rest)) =
      b.report.instructions.map (fun i => .instruction i.1 i.2) ++
        (scanner options).outputFrom .code rest := by
  have hpreface : ∀ line ∈ b.preface, headsCode line = false :=
    fun line hline => (b.preface_plain line hline).2
  rw [outputFrom_beforeCode_append options hpreface, outputFrom_cons,
    step_beforeCode_of_code options b.heading_heads, List.nil_append,
    outputFrom_code_append options b.code_plain]
  rfl

theorem outputFrom_classTop_method (b : MethodBlock) (rest : List String) :
    (scanner options).outputFrom .classTop (b.lines ++ rest) =
      b.report.items ++ (scanner options).outputFrom .code rest := by
  simp only [MethodBlock.lines, List.cons_append, List.append_assoc, outputFrom_cons,
    step_classTop_of_method options b.header_reads, outputFrom_method_body]
  rfl

theorem outputFrom_code_method (b : MethodBlock) (rest : List String) :
    (scanner options).outputFrom .code (b.lines ++ rest) =
      (.gap :: b.report.items) ++ (scanner options).outputFrom .code rest := by
  simp only [MethodBlock.lines, List.cons_append, List.append_assoc, outputFrom_cons,
    step_code_of_method options b.header_reads, outputFrom_method_body]
  rfl

theorem outputFrom_code_methods (methods : List MethodBlock) (rest : List String) :
    (scanner options).outputFrom .code (methods.flatMap MethodBlock.lines ++ rest) =
      methods.flatMap (fun b => .gap :: b.report.items) ++
        (scanner options).outputFrom .code rest := by
  induction methods with
  | nil => simp
  | cons b methods ih =>
    rw [List.flatMap_cons, List.append_assoc, outputFrom_code_method, ih, List.flatMap_cons,
      List.append_assoc]

end Methods

/-! ### Classes -/

section Classes

variable (options : FilterOptions)

/-- The methods of a class, one after another, with what stands behind the class. -/
theorem outputFrom_classTop_methods (methods : List MethodBlock) {rest : List String}
    (h : AtClass rest) :
    (scanner options).outputFrom .classTop (methods.flatMap MethodBlock.lines ++ rest) =
      [Item.gap].intercalate (methods.map fun b => b.report.items) ++
        (scanner options).outputFrom .outside rest := by
  have htop : Region.classTop ≠ .preamble ∧ Region.classTop ≠ .beforeCode := by decide
  have hcode : Region.code ≠ .preamble ∧ Region.code ≠ .beforeCode := by decide
  cases methods with
  | nil => exact outputFrom_of_atClass options h htop.1 htop.2
  | cons b methods =>
    rw [List.flatMap_cons, List.append_assoc, outputFrom_classTop_method, outputFrom_code_methods,
      outputFrom_of_atClass options h hcode.1 hcode.2, List.map_cons, intercalate_singleton_cons,
      List.flatMap_map, List.append_assoc]

end Classes

theorem ClassBlock.atClass_lines (b : ClassBlock s) (rest : List String) :
    AtClass (b.lines ++ rest) := by
  cases b with
  | hidden header internalName lines header_reads => exact atClass_cons header_reads _
  | shown header internalName properties methods header_reads => exact atClass_cons header_reads _

theorem outputFrom_classBlock (v : Bool) (b : ClassBlock s) {rest : List String}
    (h : AtClass rest) :
    (scanner ⟨s, v⟩).outputFrom .outside (b.lines ++ rest) =
      b.report?.toList.flatMap ClassReport.items ++
        (scanner ⟨s, v⟩).outputFrom .outside rest := by
  have houtside : Region.outside ≠ .preamble ∧ Region.outside ≠ .beforeCode := by decide
  cases b with
  | hidden header internalName lines header_reads name_hidden lines_plain =>
    simp only [ClassBlock.lines, List.cons_append, outputFrom_cons,
      step_of_class _ header_reads houtside.1 houtside.2, name_hidden, if_true,
      outputFrom_outside_append _ lines_plain]
    rfl
  | shown header internalName properties methods header_reads name_shown properties_plain =>
    simp only [ClassBlock.lines, List.cons_append, List.append_assoc, outputFrom_cons,
      step_of_class _ header_reads houtside.1 houtside.2, name_shown, Bool.false_eq_true, if_false,
      outputFrom_classTop_append _ properties_plain, outputFrom_classTop_methods _ methods h]
    simp [ClassBlock.report?, ClassReport.items, Function.comp_def]

theorem outputFrom_classBlocks (v : Bool) (classes : List (ClassBlock s)) :
    (scanner ⟨s, v⟩).outputFrom .outside (classes.flatMap ClassBlock.lines) =
      (classes.filterMap ClassBlock.report?).flatMap ClassReport.items := by
  induction classes with
  | nil => rfl
  | cons b classes ih =>
    have hnext : AtClass (classes.flatMap ClassBlock.lines) := by
      cases classes with
      | nil => exact atClass_nil
      | cons next classes => exact next.atClass_lines _
    rw [List.flatMap_cons, outputFrom_classBlock v b hnext, ih]
    cases hreport : b.report? <;> simp [hreport]

/-- What is written of a well-formed dump is what the lines of its shown classes say, class by
class and method by method. -/
theorem condense_wellFormedListing (v : Bool) (d : WellFormedDump s) :
    condense ⟨s, v⟩ d.lines = renderReport d.report := by
  rw [condense_eq_render_outputFrom, ← render_items, WellFormedDump.lines,
    outputFrom_preamble_append _ d.preamble_plain, outputFrom_preamble_of_opens _ d.opening_opens,
    outputFrom_outside_append _ d.lead_plain, outputFrom_classBlocks]
  rfl

/-! ### A dump of three classes

A class of the runtime whose method has no code, a class with two methods, and a class without
methods. Above the code of the first method stands a line that looks like an instruction. -/

theorem headsNothing_iff {line : String} :
    HeadsNothing line ↔ classHeader? line = none ∧ methodHeader? line = none :=
  ⟨fun h => ⟨h.noClass, h.noMethod⟩, fun h => ⟨h.1, h.2⟩⟩

instance decidableHeadsNothing : DecidablePred HeadsNothing :=
  fun _ => decidable_of_iff _ headsNothing_iff.symm

def getMethod : MethodBlock where
  header := "  0: int a.B.get() (dex_method_idx=1)"
  signature := "int a.B.get()"
  preface := ["    DEX CODE:", "      0x0000: 0f01  | return v1"]
  heading := "    CODE: (code_offset=0x1030 size=8)"
  code := ["      0x00001030: 2a0103e0\tmov w0, w1", "      StackMap[0] (native_pc=0x1034)",
    "      0x00001034: d65f03c0\tret"]
  header_reads := by decide +kernel
  preface_plain := by decide +kernel
  heading_heads := by decide +kernel
  code_plain := by decide +kernel

def runMethod : MethodBlock where
  header := "  1: void a.B.run() (dex_method_idx=2)"
  signature := "void a.B.run()"
  preface := []
  heading := "    CODE: (code_offset=0x1040 size=0)"
  code := []
  header_reads := by decide +kernel
  preface_plain := by simp
  heading_heads := by decide +kernel
  code_plain := by simp

def threeClassDump : WellFormedDump ⟨["kotlin."]⟩ where
  preamble := ["MAGIC:", "oat", "199"]
  opening := "OatDexFile:"
  lead := ["location: classes.dex"]
  classes :=
    [.hidden "0: Lkotlin/Unit; (offset=0x590) (type_idx=1)" "kotlin/Unit".toList
        ["  0: void kotlin.Unit.<clinit>() (dex_method_idx=0)"] (by decide +kernel)
        (by decide +kernel) (by decide +kernel),
      .shown "1: La/B; (offset=0x5a0) (type_idx=2)" "a/B".toList ["  (OatClassAllCompiled)"]
        [getMethod, runMethod] (by decide +kernel) (by decide +kernel) (by decide +kernel),
      .shown "2: Lc/D; (offset=0x5b0) (type_idx=3)" "c/D".toList [] [] (by decide +kernel)
        (by decide +kernel) (by simp)]
  preamble_plain := by decide +kernel
  opening_opens := by decide +kernel
  lead_plain := by decide +kernel

theorem condense_threeClassListing :
    condense ⟨⟨["kotlin."]⟩, false⟩ threeClassDump.lines =
      "class a.B\n" ++
      "    int a.B.get()\n" ++
      "        0x00001030: mov w0, w1\n" ++
      "        0x00001034: ret\n" ++
      "\n" ++
      "    void a.B.run()\n" ++
      "class c.D\n" :=
  (condense_wellFormedListing false threeClassDump).trans (by decide +kernel)

end SnippetLens.NativeCode
