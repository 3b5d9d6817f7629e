import SnippetLens.Proofs.Bytecode.Pattern
import SnippetLens.Proofs.Bytecode.Projection

/-!
Well-formed bytecode dumps, and what the scan recovers from them.

A well-formed dump is a tree: a preamble and then class blocks, each with its method blocks. The
tree carries the conditions on its lines, so it can be written out as lines and read as a report,
and the main statement says that the scan reads the report from the lines.

The proof goes through the tree from the leaves to the root. What makes it work is that the line
behind a stretch is never taken for a part of it: every line that can stand behind a body ends the
body, and every line that can stand behind a class leaves the class. The lines of a stretch are
therefore read by induction with any such lines behind them.
-/

namespace SnippetLens.Bytecode

open Listing Text

/-! ### The tree of a well-formed dump -/

/-- A method: its start, the lines with its name and its type, and its body. -/
structure MethodBlock where
  start : String
  nameLine : String
  typeLine : String
  body : List String
  start_starts : isMethodStart start = true
  body_inside : ∀ line ∈ body, BodyLine.ofLine line ≠ .boundary

/-- Whether a line may stand between the methods of a class: it is blank, or it heads the virtual
methods while these are shown. -/
def IsFiller (virtualMethods : Bool) (line : String) : Prop :=
  allBlank line = true ∨
    virtualMethods = true ∧ headsVirtualMethods line = true ∧ isMethodStart line = false ∧
      BodyLine.ofLine line = .boundary

inductive Entry (virtualMethods : Bool) where
  | filler (line : String) (fills : IsFiller virtualMethods line)
  | method (block : MethodBlock)

structure LeavesClass (virtualMethods : Bool) (line : String) : Prop where
  notBlank : allBlank line = false
  notStart : isMethodStart line = false
  boundary : BodyLine.ofLine line = .boundary
  notVirtual : virtualMethods = true → headsVirtualMethods line = false

/-- A class: its start, the line that names it, its properties, the line that heads its methods,
the methods section, and what stands behind that. -/
structure ClassBlock (virtualMethods : Bool) where
  start : String
  descriptor : String
  properties : List String
  heading : String
  entries : List (Entry virtualMethods)
  tail : List String
  start_starts : isClassStart start = true
  start_notVirtual : headsVirtualMethods start = false
  properties_plain : ∀ line ∈ properties, headsDirectMethods line = false
  heading_heads : headsDirectMethods heading = true
  tail_leaves : ∀ line, tail.head? = some line → LeavesClass virtualMethods line
  tail_plain : ∀ line ∈ tail, isClassStart line = false

structure WellFormedDump (virtualMethods : Bool) where
  preamble : List String
  classes : List (ClassBlock virtualMethods)
  preamble_plain : ∀ line ∈ preamble, isClassStart line = false

variable {v : Bool}

/-! ### Its lines and its report -/

def MethodBlock.lines (b : MethodBlock) : List String :=
  b.start :: b.nameLine :: b.typeLine :: b.body

def MethodBlock.report (b : MethodBlock) : MethodReport where
  name := (methodName? b.nameLine).getD unknownName
  type := (methodType? b.typeLine).getD unknownName
  instructions := b.body.filterMap instruction?

def Entry.lines : Entry v → List String
  | .filler line _ => [line]
  | .method block => block.lines

def Entry.report? : Entry v → Option MethodReport
  | .filler _ _ => none
  | .method block => some block.report

def ClassBlock.lines (b : ClassBlock v) : List String :=
  b.start :: b.descriptor :: (b.properties ++ b.heading :: (b.entries.flatMap Entry.lines ++ b.tail))

def ClassBlock.report (b : ClassBlock v) : ClassReport where
  name := declaredName b.descriptor
  methods := b.entries.filterMap Entry.report?

def WellFormedDump.lines (d : WellFormedDump v) : List String :=
  d.preamble ++ d.classes.flatMap ClassBlock.lines

def WellFormedDump.report (d : WellFormedDump v) : List ClassReport :=
  d.classes.map ClassBlock.report

/-! ### Stretches of lines that keep the place -/

section Stretches

variable (options : FilterOptions) (owner : Owner)

theorem outputFrom_betweenClasses_append {stretch : List String}
    (h : ∀ line ∈ stretch, isClassStart line = false) (rest : List String) :
    (scanner options).outputFrom .betweenClasses (stretch ++ rest) =
      (scanner options).outputFrom .betweenClasses rest := by
  apply Scanner.outputFrom_append_of_passed
  intro line hline
  simp [scanner, step, stepBetweenClasses, h line hline]

theorem outputFrom_beforeMethods_append {stretch : List String}
    (h : ∀ line ∈ stretch, headsDirectMethods line = false) (rest : List String) :
    (scanner options).outputFrom (.beforeMethods owner) (stretch ++ rest) =
      (scanner options).outputFrom (.beforeMethods owner) rest := by
  apply Scanner.outputFrom_append_of_passed
  intro line hline
  simp [scanner, step, h line hline]

theorem outputFrom_body_append {stretch : List String}
    (h : ∀ line ∈ stretch, BodyLine.ofLine line ≠ .boundary) (rest : List String) :
    (scanner options).outputFrom (.body owner) (stretch ++ rest) =
      owner.puts ((stretch.filterMap instruction?).map .instruction) ++
        (scanner options).outputFrom (.body owner) rest := by
  induction stretch with
  | nil => simp
  | cons line stretch ih =>
    have hrest := ih fun l hl => h l (by simp [hl])
    simp only [Scanner.outputFrom, scanner, step, stepBody, List.cons_append] at hrest ⊢
    cases hline : BodyLine.ofLine line with
    | instruction text =>
      simp only [hrest, instruction?_of_ofLine_instruction hline, List.filterMap_cons,
        List.map_cons]
      rw [← List.append_assoc, ← puts_append]
      rfl
    | metadata =>
      simp [hrest, instruction?_of_ofLine_metadata hline]
    | boundary => exact absurd hline (h line (by simp))

/-- The line behind a body closes the method and is then read as one between methods. -/
theorem outputFrom_body_of_boundary {lines : List String}
    (h : ∀ line, lines.head? = some line → BodyLine.ofLine line = .boundary) :
    (scanner options).outputFrom (.body owner) lines =
      owner.puts [.gap] ++ (scanner options).outputFrom (.betweenMethods owner) lines := by
  cases lines with
  | nil => simp [Scanner.outputFrom, scanner, finish]
  | cons line rest => simp [Scanner.outputFrom, scanner, step, stepBody, h line rfl]

/-- The line behind the methods of a class is read as one between classes. -/
theorem outputFrom_betweenMethods_of_leaves {lines : List String}
    (h : ∀ line, lines.head? = some line → LeavesClass options.virtualMethods line) :
    (scanner options).outputFrom (.betweenMethods owner) lines =
      (scanner options).outputFrom .betweenClasses lines := by
  cases lines with
  | nil => rfl
  | cons line rest =>
    obtain ⟨hblank, hstart, -, hvirtual⟩ := h line rfl
    have hkeeps : (options.virtualMethods && headsVirtualMethods line) = false := by
      cases hv : options.virtualMethods <;> simp [hv, hvirtual]
    simp [Scanner.outputFrom, scanner, step, stepBetweenMethods, hblank, hstart, hkeeps]

end Stretches

/-! ### From the leaves to the root -/

section Tree

variable (s : Suppression) (owner : Owner)

theorem outputFrom_methodHead (options : FilterOptions) (b : MethodBlock) (rest : List String) :
    (scanner options).outputFrom (.betweenMethods owner)
        (b.start :: b.nameLine :: b.typeLine :: rest) =
      owner.puts [.method b.report.name b.report.type owner.name] ++
        (scanner options).outputFrom (.body owner) rest := by
  have hblank : allBlank b.start = false := allBlank_of_isMethodStart b.start_starts
  simp only [Scanner.outputFrom, scanner, step, stepBetweenMethods, hblank, b.start_starts]
  rfl

theorem outputFrom_methodBlock (options : FilterOptions) (b : MethodBlock) {rest : List String}
    (h : ∀ line, rest.head? = some line → BodyLine.ofLine line = .boundary) :
    (scanner options).outputFrom (.betweenMethods owner) (b.lines ++ rest) =
      owner.puts (b.report.items owner.name) ++
        (scanner options).outputFrom (.betweenMethods owner) rest := by
  have hbody := outputFrom_body_append options owner b.body_inside rest
  rw [outputFrom_body_of_boundary options owner h] at hbody
  simp only [MethodBlock.lines, List.cons_append, outputFrom_methodHead, hbody]
  simp only [← List.append_assoc, ← puts_append]
  rfl

theorem outputFrom_filler {line : String} (h : IsFiller v line) (rest : List String) :
    (scanner ⟨s, v⟩).outputFrom (.betweenMethods owner) (line :: rest) =
      (scanner ⟨s, v⟩).outputFrom (.betweenMethods owner) rest := by
  have hstep : stepBetweenMethods ⟨s, v⟩ owner line = (.betweenMethods owner, []) := by
    rcases h with hblank | ⟨hv, hvirtual, hstart, -⟩
    · simp [stepBetweenMethods, hblank]
    · simp [stepBetweenMethods, hv, hvirtual, hstart]
  simp [Scanner.outputFrom, scanner, step, hstep]

theorem Entry.head_boundary (e : Entry v) (rest : List String) :
    ∀ line, (e.lines ++ rest).head? = some line → BodyLine.ofLine line = .boundary := by
  cases e with
  | filler line fills =>
    rintro _ ⟨⟩
    rcases fills with hblank | ⟨-, -, -, hboundary⟩
    · exact ofLine_of_allBlank hblank
    · exact hboundary
  | method block =>
    rintro _ ⟨⟩
    exact ofLine_of_isMethodStart block.start_starts

theorem outputFrom_entries (entries : List (Entry v)) {rest : List String}
    (h : ∀ line, rest.head? = some line → BodyLine.ofLine line = .boundary) :
    (scanner ⟨s, v⟩).outputFrom (.betweenMethods owner) (entries.flatMap Entry.lines ++ rest) =
      owner.puts ((entries.filterMap Entry.report?).flatMap (MethodReport.items owner.name)) ++
        (scanner ⟨s, v⟩).outputFrom (.betweenMethods owner) rest := by
  induction entries with
  | nil => simp
  | cons e entries ih =>
    rw [List.flatMap_cons, List.append_assoc]
    cases e with
    | filler line fills =>
      rw [Entry.lines, List.singleton_append, outputFrom_filler s owner fills, ih]
      rfl
    | method block =>
      -- Behind the body stands another entry or the rest, and either ends it.
      have hrest : ∀ line, (entries.flatMap Entry.lines ++ rest).head? = some line →
          BodyLine.ofLine line = .boundary := by
        cases entries with
        | nil => exact h
        | cons e entries =>
          rw [List.flatMap_cons, List.append_assoc]
          exact e.head_boundary _
      rw [Entry.lines, outputFrom_methodBlock owner _ block hrest, ih, ← List.append_assoc,
        ← puts_append]
      rfl

theorem ClassBlock.start_leaves (b : ClassBlock v) : LeavesClass v b.start where
  notBlank := allBlank_of_isClassStart b.start_starts
  notStart := isMethodStart_of_isClassStart b.start_starts
  boundary := ofLine_of_isClassStart b.start_starts
  notVirtual _ := b.start_notVirtual

/-- What stands behind the methods section of a class leaves the class. -/
theorem ClassBlock.tail_append_leaves (b : ClassBlock v) {rest : List String}
    (h : ∀ line, rest.head? = some line → LeavesClass v line) :
    ∀ line, (b.tail ++ rest).head? = some line → LeavesClass v line := by
  cases htail : b.tail with
  | nil => exact h
  | cons first others =>
    rintro _ ⟨⟩
    exact b.tail_leaves first (by rw [htail]; rfl)

/-- The lines down to the one that heads the methods of a class put out its heading. -/
theorem outputFrom_classHead (b : ClassBlock v) (rest : List String) :
    (scanner ⟨s, v⟩).outputFrom .betweenClasses
        (b.start :: b.descriptor :: (b.properties ++ b.heading :: rest)) =
      (openClass ⟨s, v⟩ b.report.name).2 ++
        (scanner ⟨s, v⟩).outputFrom (.betweenMethods (openClass ⟨s, v⟩ b.report.name).1) rest := by
  have hheading : ∀ owner, (scanner ⟨s, v⟩).step (.beforeMethods owner) b.heading =
      (.betweenMethods owner, []) := fun owner => by simp [scanner, step, b.heading_heads]
  have hproperties := outputFrom_beforeMethods_append ⟨s, v⟩ (openClass ⟨s, v⟩ b.report.name).1
    b.properties_plain (b.heading :: rest)
  rw [Scanner.outputFrom, hheading, List.nil_append] at hproperties
  rw [← hproperties]
  simp [Scanner.outputFrom, scanner, step, stepBetweenClasses, b.start_starts]
  rfl

/-- The methods section of a class and what stands behind it, from any entry on. -/
theorem outputFrom_methodsSection (b : ClassBlock v) (entries : List (Entry v))
    {rest : List String} (h : ∀ line, rest.head? = some line → LeavesClass v line) :
    (scanner ⟨s, v⟩).outputFrom (.betweenMethods owner)
        (entries.flatMap Entry.lines ++ (b.tail ++ rest)) =
      owner.puts ((entries.filterMap Entry.report?).flatMap (MethodReport.items owner.name)) ++
        (scanner ⟨s, v⟩).outputFrom .betweenClasses rest := by
  have hleaves := b.tail_append_leaves h
  rw [outputFrom_entries s owner entries fun line hl => (hleaves line hl).boundary,
    outputFrom_betweenMethods_of_leaves ⟨s, v⟩ owner hleaves,
    outputFrom_betweenClasses_append _ b.tail_plain]

/-- A class puts out its heading and its methods, unless it is hidden. -/
theorem openClass_append_puts (name : String) (methods : List MethodReport) :
    (openClass ⟨s, v⟩ name).2 ++
        (openClass ⟨s, v⟩ name).1.puts (methods.flatMap (MethodReport.items name)) =
      ([⟨name, methods⟩].filter fun c : ClassReport => !s.hides c.name).flatMap
        ClassReport.items := by
  cases hhidden : s.hides name <;> simp [openClass, Owner.puts, hhidden, ClassReport.items]

theorem outputFrom_classBlock (b : ClassBlock v) {rest : List String}
    (h : ∀ line, rest.head? = some line → LeavesClass v line) :
    (scanner ⟨s, v⟩).outputFrom .betweenClasses (b.lines ++ rest) =
      ([b.report].filter fun c => !s.hides c.name).flatMap ClassReport.items ++
        (scanner ⟨s, v⟩).outputFrom .betweenClasses rest := by
  have hlines : b.lines ++ rest = b.start :: b.descriptor ::
      (b.properties ++ b.heading :: (b.entries.flatMap Entry.lines ++ (b.tail ++ rest))) := by
    simp [ClassBlock.lines]
  rw [hlines, outputFrom_classHead, outputFrom_methodsSection s _ b b.entries h,
    ← List.append_assoc]
  exact congrArg (· ++ _) (openClass_append_puts s b.report.name b.report.methods)

theorem outputFrom_classBlocks_append (classes : List (ClassBlock v)) {rest : List String}
    (h : ∀ line, rest.head? = some line → LeavesClass v line) :
    (scanner ⟨s, v⟩).outputFrom .betweenClasses (classes.flatMap ClassBlock.lines ++ rest) =
      ((classes.map ClassBlock.report).filter fun c => !s.hides c.name).flatMap
          ClassReport.items ++
        (scanner ⟨s, v⟩).outputFrom .betweenClasses rest := by
  induction classes with
  | nil => rfl
  | cons b classes ih =>
    have hnext : ∀ line, (classes.flatMap ClassBlock.lines ++ rest).head? = some line →
        LeavesClass v line := by
      cases classes with
      | nil => exact h
      | cons next classes =>
        rintro _ ⟨⟩
        exact next.start_leaves
    rw [List.flatMap_cons, List.append_assoc, outputFrom_classBlock s b hnext, ih,
      ← List.append_assoc, ← List.flatMap_append, ← List.filter_append]
    rfl

theorem outputFrom_classBlocks (classes : List (ClassBlock v)) :
    (scanner ⟨s, v⟩).outputFrom .betweenClasses (classes.flatMap ClassBlock.lines) =
      ((classes.map ClassBlock.report).filter fun c => !s.hides c.name).flatMap
        ClassReport.items := by
  have hall := outputFrom_classBlocks_append s classes (by simp : ∀ line,
    ([] : List String).head? = some line → LeavesClass v line)
  rw [List.append_nil] at hall
  exact hall.trans (List.append_nil _)

theorem scan_wellFormedDump (d : WellFormedDump v) :
    (scanner ⟨s, v⟩).scan d.lines =
      (d.report.filter fun c => !s.hides c.name).flatMap ClassReport.items := by
  rw [Scanner.scan_eq_outputFrom, WellFormedDump.lines]
  exact (outputFrom_betweenClasses_append _ d.preamble_plain _).trans
    (outputFrom_classBlocks s d.classes)

/-- What is written of a well-formed dump is what its lines say, class by class and method by
method, without the hidden classes. -/
theorem condense_wellFormedDump (d : WellFormedDump v) :
    condense ⟨s, v⟩ d.lines = renderReport (d.report.filter fun c => !s.hides c.name) := by
  rw [condense, scan_wellFormedDump, render_items]

end Tree

/-! ### A dump of three classes

A class with two methods and virtual methods that are not shown, a class of the runtime, and a class
without methods. -/

theorem plain_nil (p : String → Bool) : ∀ line ∈ ([] : List String), p line = false := by
  simp

theorem leavesClass_nil (v : Bool) :
    ∀ line, ([] : List String).head? = some line → LeavesClass v line := by
  simp

theorem headsDirectMethods_heading : headsDirectMethods "  Direct methods    -" = true := by
  decide +kernel

def runMethod : MethodBlock where
  start := "    #0              : (in La/B;)"
  nameLine := "      name          : 'run'"
  typeLine := "      type          : '()V'"
  body := ["      access        : 0x0001 (PUBLIC)", "000144:        |[000144] a.B.run:()V",
    "000154: 1200           |0000: const/4 v0, #int 0 // #0",
    "000156: 0e00           |0001: return-void"]
  start_starts := by decide +kernel
  body_inside := by decide +kernel

def namelessMethod : MethodBlock where
  start := "    #1              : (in La/B;)"
  nameLine := "      access        : 0x0002 (PRIVATE)"
  typeLine := "      code          : (none)"
  body := []
  start_starts := by decide +kernel
  body_inside := by simp

def shownClass : ClassBlock false where
  start := "Class #0            -"
  descriptor := "  Class descriptor  : 'La/B;'"
  properties := ["  Access flags      : 0x0011 (PUBLIC FINAL)"]
  heading := "  Direct methods    -"
  entries := [.method runMethod, .filler "" (.inl rfl), .method namelessMethod]
  tail := ["  Virtual methods   -", "    #0              : (in La/B;)", "      name          : 'get'"]
  start_starts := by decide +kernel
  start_notVirtual := by decide +kernel
  properties_plain := by decide +kernel
  heading_heads := headsDirectMethods_heading
  tail_leaves := by
    rintro _ ⟨⟩
    constructor <;> decide +kernel
  tail_plain := by decide +kernel

def runtimeClass : ClassBlock false where
  start := "Class #1            -"
  descriptor := "  Class descriptor  : 'Lkotlin/Unit;'"
  properties := []
  heading := "  Direct methods    -"
  entries := [.method runMethod]
  tail := []
  start_starts := by decide +kernel
  start_notVirtual := by decide +kernel
  properties_plain := plain_nil headsDirectMethods
  heading_heads := headsDirectMethods_heading
  tail_leaves := leavesClass_nil false
  tail_plain := plain_nil isClassStart

def emptyClass : ClassBlock false where
  start := "Class #2            -"
  descriptor := "  Class descriptor  : 'Lc/D;'"
  properties := []
  heading := "  Direct methods    -"
  entries := []
  tail := []
  start_starts := by decide +kernel
  start_notVirtual := by decide +kernel
  properties_plain := plain_nil headsDirectMethods
  heading_heads := headsDirectMethods_heading
  tail_leaves := leavesClass_nil false
  tail_plain := plain_nil isClassStart

def threeClassDump : WellFormedDump false where
  preamble := ["Opened 'classes.dex', DEX version '039'"]
  classes := [shownClass, runtimeClass, emptyClass]
  preamble_plain := by decide +kernel

theorem condense_threeClassDump :
    condense ⟨⟨["kotlin."]⟩, false⟩ threeClassDump.lines =
      "class a.B\n" ++
      "    run()V // a.B.run()\n" ++
      "        0000: const/4 v0, #int 0 // #0\n" ++
      "        0001: return-void\n" ++
      "\n" ++
      "    <UNKNOWN><UNKNOWN> // a.B.<UNKNOWN>()\n" ++
      "\n" ++
      "class c.D\n" :=
  (condense_wellFormedDump ⟨["kotlin."]⟩ threeClassDump).trans (by decide +kernel)

end SnippetLens.Bytecode
