import SnippetLens.Proofs.Bytecode.WellFormed

/-!
A stray line in the body of a method.

A line that is nothing in a dump, such as a warning that got between the lines of a tool, ends the
body that it stands in. What follows is then read between the methods, if the line is blank, and
between the classes, if it is not; and the first line of the body that is read between the methods
leaves the class as well, unless it heads virtual methods that are shown. So the instructions behind
the line are lost, and in general the other methods of the class with them. The classes behind are
found again at their starts.

The main statement says of every place in a body when the condensed listing stays as it is.
-/

namespace SnippetLens.Bytecode

open Listing Text

/-- A line that no pattern takes for anything. -/
structure IsStray (line : String) : Prop where
  noDescriptor : classDescriptor? line = none
  noName : methodName? line = none
  noType : methodType? line = none
  noInstruction : instruction? line = none
  noStart : isMethodStart line = false
  noMetadata : (isIndented line || isCodeHeader line) = false
  noClass : isClassStart line = false
  noDirect : headsDirectMethods line = false
  noVirtual : headsVirtualMethods line = false

variable {v : Bool}

/-- Whether classes start at their starts only, and not within their methods. -/
def WellFormedDump.StartsApart (d : WellFormedDump v) : Prop :=
  ∀ b ∈ d.classes, ∀ line ∈ b.entries.flatMap Entry.lines, isClassStart line = false

structure BodyPlace (d : WellFormedDump v) where
  before : List (ClassBlock v)
  block : ClassBlock v
  after : List (ClassBlock v)
  above : List (Entry v)
  method : MethodBlock
  below : List (Entry v)
  front : List String
  back : List String
  classes_eq : d.classes = before ++ block :: after
  entries_eq : block.entries = above ++ .method method :: below
  body_eq : method.body = front ++ back

namespace BodyPlace

variable {d : WellFormedDump v} (p : BodyPlace d)

def linesAbove : List String :=
  d.preamble ++ (p.before.flatMap ClassBlock.lines ++
    p.block.start :: p.block.descriptor :: (p.block.properties ++
      p.block.heading :: (p.above.flatMap Entry.lines ++
        p.method.start :: p.method.nameLine :: p.method.typeLine :: p.front)))

def linesBelow : List String :=
  p.back ++ (p.below.flatMap Entry.lines ++ (p.block.tail ++ p.after.flatMap ClassBlock.lines))

theorem linesAbove_append_linesBelow : p.linesAbove ++ p.linesBelow = d.lines := by
  simp [linesAbove, linesBelow, WellFormedDump.lines, p.classes_eq, ClassBlock.lines, p.entries_eq,
    Entry.lines, MethodBlock.lines, p.body_eq]

/-- Whether the scan, after a stray line at the place, still stands between the methods of the class
when the body is over. -/
def resumes (stray : String) : Bool :=
  allBlank stray && p.back.all fun line => v && headsVirtualMethods line

/-- What is read of the class of the place with a stray line there. -/
def curtailed (stray : String) : ClassReport where
  name := p.block.report.name
  methods := p.above.filterMap Entry.report? ++
    { p.method.report with instructions := p.front.filterMap instruction? } ::
      if p.resumes stray then p.below.filterMap Entry.report? else []

end BodyPlace

/-! ### Behind the stray line -/

section Behind

variable (options : FilterOptions) (owner : Owner) {stray : String}

theorem step_stray (h : IsStray stray) : (scanner options).step (.body owner) stray =
    (if allBlank stray then .betweenMethods owner else .betweenClasses, owner.puts [.gap]) := by
  have hboundary : BodyLine.ofLine stray = .boundary := by
    simp [BodyLine.ofLine, h.noInstruction, h.noStart, h.noMetadata]
  cases hblank : allBlank stray <;>
    simp [scanner, step, stepBody, hboundary, stepBetweenMethods, stepBetweenClasses, hblank,
      h.noStart, h.noVirtual, h.noClass]

theorem stepBetweenMethods_of_inside {line : String} (h : BodyLine.ofLine line ≠ .boundary) :
    stepBetweenMethods options owner line =
      (if options.virtualMethods && headsVirtualMethods line then .betweenMethods owner
        else .betweenClasses, []) := by
  have hblank : allBlank line = false := by
    rw [Bool.eq_false_iff]
    exact fun hline => h (ofLine_of_allBlank hline)
  have hstart : isMethodStart line = false := by
    rw [Bool.eq_false_iff]
    exact fun hline => h (ofLine_of_isMethodStart hline)
  cases hkeeps : (options.virtualMethods && headsVirtualMethods line) <;>
    simp [stepBetweenMethods, stepBetweenClasses, hblank, hstart, hkeeps, isClassStart_of_inside h]

theorem outputFrom_betweenMethods_inside {lines : List String}
    (h : ∀ line ∈ lines, BodyLine.ofLine line ≠ .boundary) (rest : List String) :
    (scanner options).outputFrom (.betweenMethods owner) (lines ++ rest) =
      (scanner options).outputFrom
        (if lines.all fun line => options.virtualMethods && headsVirtualMethods line then
          .betweenMethods owner else .betweenClasses) rest := by
  induction lines with
  | nil => rfl
  | cons line lines ih =>
    obtain ⟨hline, hlines⟩ := List.forall_mem_cons.1 h
    have hstep : (scanner options).step (.betweenMethods owner) line = _ :=
      stepBetweenMethods_of_inside options owner hline
    rw [List.cons_append, Scanner.outputFrom, hstep, List.all_cons, List.nil_append]
    cases options.virtualMethods && headsVirtualMethods line with
    | true => exact ih hlines
    | false =>
      exact outputFrom_betweenClasses_append options
        (fun other hother => isClassStart_of_inside (hlines other hother)) rest

theorem outputFrom_stray_append (h : IsStray stray) {lines : List String}
    (hlines : ∀ line ∈ lines, BodyLine.ofLine line ≠ .boundary) (rest : List String) :
    (scanner options).outputFrom (.body owner) (stray :: (lines ++ rest)) =
      owner.puts [.gap] ++ (scanner options).outputFrom
        (if allBlank stray && lines.all fun line =>
            options.virtualMethods && headsVirtualMethods line then
          .betweenMethods owner else .betweenClasses) rest := by
  rw [Scanner.outputFrom, step_stray options owner h]
  congr 1
  cases allBlank stray with
  | true => exact outputFrom_betweenMethods_inside options owner hlines rest
  | false =>
    exact outputFrom_betweenClasses_append options
      (fun line hline => isClassStart_of_inside (hlines line hline)) rest

end Behind

/-! ### The whole dump -/

section Dump

variable (s : Suppression) {d : WellFormedDump v} (p : BodyPlace d) {stray : String}

theorem body_inside_front_back :
    (∀ line ∈ p.front, BodyLine.ofLine line ≠ .boundary) ∧
      ∀ line ∈ p.back, BodyLine.ofLine line ≠ .boundary := by
  have hbody := p.method.body_inside
  rw [p.body_eq] at hbody
  exact List.forall_mem_append.1 hbody

/-- The method and the methods below it, with a stray line at the place. -/
theorem outputFrom_curtailed (hapart : d.StartsApart) (h : IsStray stray) (owner : Owner) :
    (scanner ⟨s, v⟩).outputFrom (.body owner) (p.front ++ stray :: p.linesBelow) =
      owner.puts ((p.front.filterMap instruction?).map .instruction) ++
        (owner.puts [.gap] ++ (owner.puts ((if p.resumes stray then
            p.below.filterMap Entry.report? else []).flatMap (MethodReport.items owner.name)) ++
          ((p.after.map ClassBlock.report).filter fun c => !s.hides c.name).flatMap
            ClassReport.items)) := by
  obtain ⟨hfront, hback⟩ := body_inside_front_back p
  have hafter : ∀ line, (p.after.flatMap ClassBlock.lines).head? = some line →
      LeavesClass v line := by
    cases p.after with
    | nil => simp
    | cons next classes =>
      rintro _ ⟨⟩
      exact next.start_leaves
  rw [outputFrom_body_append _ owner hfront, BodyPlace.linesBelow,
    outputFrom_stray_append _ owner h hback]
  congr 2
  show (scanner ⟨s, v⟩).outputFrom (if p.resumes stray then _ else _) _ = _
  cases p.resumes stray with
  | true =>
    simp only [if_true]
    rw [outputFrom_methodsSection s owner p.block p.below hafter, outputFrom_classBlocks]
  | false =>
    have hblock : p.block ∈ d.classes := by simp [p.classes_eq]
    have hbelow : ∀ line ∈ p.below.flatMap Entry.lines, isClassStart line = false := by
      intro line hline
      apply hapart p.block hblock
      simp [p.entries_eq, hline]
    simp only [Bool.false_eq_true, if_false]
    rw [outputFrom_betweenClasses_append _ hbelow, outputFrom_betweenClasses_append _
      p.block.tail_plain, outputFrom_classBlocks]
    simp

theorem items_filter_middle (shown : ClassReport → Bool) (before after : List ClassReport)
    (c : ClassReport) :
    ((before ++ c :: after).filter shown).flatMap ClassReport.items =
      (before.filter shown).flatMap ClassReport.items ++
        (([c].filter shown).flatMap ClassReport.items ++
          (after.filter shown).flatMap ClassReport.items) := by
  have hmiddle : c :: after = [c] ++ after := rfl
  rw [hmiddle, List.filter_append, List.filter_append, List.flatMap_append, List.flatMap_append]

theorem condense_insert_stray (hapart : d.StartsApart) (h : IsStray stray) :
    condense ⟨s, v⟩ (p.linesAbove ++ stray :: p.linesBelow) =
      renderReport ((p.before.map ClassBlock.report ++
        p.curtailed stray :: p.after.map ClassBlock.report).filter fun c => !s.hides c.name) := by
  have hlines : p.linesAbove ++ stray :: p.linesBelow =
      d.preamble ++ (p.before.flatMap ClassBlock.lines ++ p.block.start :: p.block.descriptor ::
        (p.block.properties ++ p.block.heading :: (p.above.flatMap Entry.lines ++
          p.method.start :: p.method.nameLine :: p.method.typeLine ::
            (p.front ++ stray :: p.linesBelow)))) := by
    simp [BodyPlace.linesAbove]
  have hmethod : ∀ rest line, (p.method.start :: rest).head? = some line →
      BodyLine.ofLine line = .boundary := by
    rintro rest _ ⟨⟩
    exact ofLine_of_isMethodStart p.method.start_starts
  have hclass : ∀ rest line, (p.block.start :: rest).head? = some line → LeavesClass v line := by
    rintro rest _ ⟨⟩
    exact p.block.start_leaves
  have hname : (openClass ⟨s, v⟩ p.block.report.name).1.name = p.block.report.name := rfl
  have hitems : (p.curtailed stray).methods.flatMap (MethodReport.items p.block.report.name) =
      (p.above.filterMap Entry.report?).flatMap (MethodReport.items p.block.report.name) ++
        ([.method p.method.report.name p.method.report.type p.block.report.name] ++
          ((p.front.filterMap instruction?).map .instruction ++ ([.gap] ++
            (if p.resumes stray then p.below.filterMap Entry.report? else []).flatMap
              (MethodReport.items p.block.report.name)))) := by
    simp [BodyPlace.curtailed, MethodReport.items]
  have hopened := openClass_append_puts s (v := v) p.block.report.name (p.curtailed stray).methods
  rw [condense, ← render_items, Scanner.scan_eq_outputFrom, hlines]
  congr 1
  refine (outputFrom_betweenClasses_append _ d.preamble_plain _).trans ?_
  rw [outputFrom_classBlocks_append s p.before (hclass _), outputFrom_classHead,
    outputFrom_entries s _ p.above (hmethod _), outputFrom_methodHead,
    outputFrom_curtailed s p hapart h, items_filter_middle]
  refine congrArg (_ ++ ·) (Eq.trans ?_ (congrArg (· ++ _) hopened))
  simp only [hitems, puts_append, List.append_assoc, hname]

/-! ### What is lost -/

theorem length_render_append (front back : List Item) :
    (render (front ++ back)).toList.length =
      (render front).toList.length + (render back).toList.length := by
  rw [render_append, List.length_append]

theorem length_render_eq_zero_iff {items : List Item} :
    (render items).toList.length = 0 ↔ items = [] := by
  cases items with
  | nil => simp [render]
  | cons item rest => cases item <;> simp [render, Item.render]

theorem report_middle : d.report = p.before.map ClassBlock.report ++
    p.block.report :: p.after.map ClassBlock.report := by
  rw [WellFormedDump.report, p.classes_eq, List.map_append, List.map_cons]

/-- The class as it is and as it is read with the stray line begin with the same items. -/
theorem exists_lead (stray : String) : ∃ lead : List Item,
    p.block.report.items = lead ++ ((p.back.filterMap instruction?).map .instruction ++
      ([.gap] ++ (p.below.filterMap Entry.report?).flatMap
        (MethodReport.items p.block.report.name))) ∧
    (p.curtailed stray).items = lead ++ ([.gap] ++
      (if p.resumes stray then p.below.filterMap Entry.report? else []).flatMap
        (MethodReport.items p.block.report.name)) := by
  have hmethods : p.block.report.methods = p.above.filterMap Entry.report? ++
      p.method.report :: p.below.filterMap Entry.report? := by
    simp [ClassBlock.report, p.entries_eq, Entry.report?]
  have hinstructions : p.method.report.instructions =
      p.front.filterMap instruction? ++ p.back.filterMap instruction? := by
    rw [MethodBlock.report, p.body_eq, List.filterMap_append]
  refine ⟨.heading p.block.report.name :: ((p.above.filterMap Entry.report?).flatMap
    (MethodReport.items p.block.report.name) ++
      .method p.method.report.name p.method.report.type p.block.report.name ::
        (p.front.filterMap instruction?).map .instruction), ?_, ?_⟩
  · simp [ClassReport.items, hmethods, MethodReport.items, hinstructions]
  · simp [ClassReport.items, BodyPlace.curtailed, MethodReport.items]

theorem flatMap_items_eq_nil_iff {name : String} {methods : List MethodReport} :
    methods.flatMap (MethodReport.items name) = [] ↔ methods = [] := by
  cases methods <;> simp [MethodReport.items]

/-- The class is written alike with the stray line if nothing of it is lost. -/
theorem render_curtailed_eq_iff (stray : String) :
    (render (p.curtailed stray).items).toList = (render p.block.report.items).toList ↔
      p.back.filterMap instruction? = [] ∧
        (p.resumes stray = true ∨ p.below.filterMap Entry.report? = []) := by
  obtain ⟨lead, hblock, hcurtailed⟩ := exists_lead p stray
  rw [hblock, hcurtailed]
  constructor
  · -- What is lost makes the text longer.
    intro heq
    have hlength := congrArg List.length heq
    simp only [length_render_append] at hlength
    cases hresumes : p.resumes stray with
    | true =>
      simp only [hresumes, if_true] at hlength
      have hnone : (render ((p.back.filterMap instruction?).map .instruction)).toList.length = 0 := by
        omega
      exact ⟨by simpa using length_render_eq_zero_iff.1 hnone, .inl rfl⟩
    | false =>
      have hkept : (render (([] : List MethodReport).flatMap
          (MethodReport.items p.block.report.name))).toList.length = 0 :=
        length_render_eq_zero_iff.2 rfl
      simp only [hresumes, Bool.false_eq_true, if_false, hkept] at hlength
      have hnone : (render ((p.back.filterMap instruction?).map .instruction)).toList.length = 0 := by
        omega
      have hbelow : (render ((p.below.filterMap Entry.report?).flatMap
          (MethodReport.items p.block.report.name))).toList.length = 0 := by
        omega
      refine ⟨by simpa using length_render_eq_zero_iff.1 hnone, .inr ?_⟩
      exact flatMap_items_eq_nil_iff.1 (length_render_eq_zero_iff.1 hbelow)
  · rintro ⟨hback, hresumes | hbelow⟩
    · rw [hback, hresumes, if_pos rfl]
      rfl
    · rw [hback, hbelow, ite_self]
      rfl

/-- The condensed listing stays as it is if the class is hidden, or if no instruction of the method
stands below the stray line, and no method of the class that is not found again. -/
theorem condense_insert_stray_eq_iff (hapart : d.StartsApart) (h : IsStray stray) :
    p.linesAbove ++ p.linesBelow = d.lines ∧
      (condense ⟨s, v⟩ (p.linesAbove ++ stray :: p.linesBelow) = condense ⟨s, v⟩ d.lines ↔
        s.hides p.block.report.name = true ∨
          p.back.filterMap instruction? = [] ∧
            (p.resumes stray = true ∨ p.below.filterMap Entry.report? = [])) := by
  refine ⟨p.linesAbove_append_linesBelow, ?_⟩
  rw [condense_insert_stray s p hapart h, ← render_items, condense, scan_wellFormedDump,
    report_middle p, items_filter_middle, items_filter_middle, ← String.toList_inj, render_append,
    render_append, render_append, render_append, List.append_cancel_left_eq,
    List.append_cancel_right_eq]
  have hname : (p.curtailed stray).name = p.block.report.name := rfl
  cases hhidden : s.hides p.block.report.name with
  | true => simp [hname, hhidden]
  | false => simpa [hname, hhidden] using render_curtailed_eq_iff p stray

end Dump

/-! ### A warning between two instructions -/

def nopMethod : MethodBlock where
  start := "    #0 : (in La/B;)"
  nameLine := "      name          : 'f'"
  typeLine := "      type          : '()V'"
  body := ["000154: 0000 |0000: nop", "000156: 0e00 |0001: return-void"]
  start_starts := by decide +kernel
  body_inside := by decide +kernel

def nopClass : ClassBlock false where
  start := "Class #0 -"
  descriptor := "  Class descriptor  : 'La/B;'"
  properties := []
  heading := "  Direct methods    -"
  entries := [.method nopMethod]
  tail := []
  start_starts := by decide +kernel
  start_notVirtual := by decide +kernel
  properties_plain := plain_nil headsDirectMethods
  heading_heads := headsDirectMethods_heading
  tail_leaves := leavesClass_nil false
  tail_plain := plain_nil isClassStart

def nopDump : WellFormedDump false where
  preamble := []
  classes := [nopClass]
  preamble_plain := plain_nil isClassStart

def behindNop : BodyPlace nopDump where
  before := []
  block := nopClass
  after := []
  above := []
  method := nopMethod
  below := []
  front := ["000154: 0000 |0000: nop"]
  back := ["000156: 0e00 |0001: return-void"]
  classes_eq := rfl
  entries_eq := rfl
  body_eq := rfl

theorem startsApart_nopDump : nopDump.StartsApart := by
  intro b hb
  obtain rfl : b = nopClass := by simpa [nopDump] using hb
  decide +kernel

theorem isStray_warning : IsStray "warning: x" := by
  constructor <;> decide

theorem condense_insert_stray_nopDump :
    nopDump.StartsApart ∧ IsStray "warning: x" ∧
      behindNop.linesAbove ++ behindNop.linesBelow = nopDump.lines ∧
        (condense ⟨.none, false⟩ (behindNop.linesAbove ++ "warning: x" :: behindNop.linesBelow) =
            condense ⟨.none, false⟩ nopDump.lines ↔
          Suppression.none.hides behindNop.block.report.name = true ∨
            behindNop.back.filterMap instruction? = [] ∧
              (behindNop.resumes "warning: x" = true ∨
                behindNop.below.filterMap Entry.report? = [])) :=
  ⟨startsApart_nopDump, isStray_warning,
    condense_insert_stray_eq_iff .none behindNop startsApart_nopDump isStray_warning⟩

/-- The instruction behind the warning is lost. -/
theorem condense_nopDump_warned :
    nopDump.StartsApart ∧ IsStray "warning: x" ∧
      condense ⟨.none, false⟩ (behindNop.linesAbove ++ behindNop.linesBelow) =
        "class a.B\n    f()V // a.B.f()\n        0000: nop\n        0001: return-void\n\n" ∧
      condense ⟨.none, false⟩ (behindNop.linesAbove ++ "warning: x" :: behindNop.linesBelow) =
        "class a.B\n    f()V // a.B.f()\n        0000: nop\n\n" :=
  ⟨startsApart_nopDump, isStray_warning, by decide +kernel, by decide +kernel⟩

end SnippetLens.Bytecode
