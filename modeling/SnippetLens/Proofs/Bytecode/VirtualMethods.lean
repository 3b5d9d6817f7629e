import Mathlib.Data.List.Forall2
import SnippetLens.Proofs.Bytecode.ClassLines

/-!
Showing virtual methods as well only adds methods.

A scan that shows virtual methods goes on with a class where one that does not has left it. From
there it reads lines on its own, and the other one waits for the next class start. The two meet
again at that class start, unless the first one takes it for something else: for the name or the
type of a method, or for a line that heads virtual methods. So on lines where this cannot happen
both scans name the same classes, and what one reads of a class begins with what the other reads.

`Ahead` says how the two scans can stand to each other, and `Outline.Extends` what the rest of the
dump says to both where they stand at the same place.
-/

namespace SnippetLens.Bytecode

open Listing

/-! ### Lines whose class starts are looked for -/

/-- Whether no class start stands in the two lines behind a method start, and none heads virtual
methods. -/
def StartsInTheOpen : List String → Prop
  | [] => True
  | line :: rest =>
    (isMethodStart line = true → ∀ next ∈ rest.take 2, isClassStart next = false) ∧
      (isClassStart line = true → headsVirtualMethods line = false) ∧ StartsInTheOpen rest

instance decidableStartsInTheOpen : DecidablePred StartsInTheOpen
  | [] => inferInstanceAs (Decidable True)
  | _ :: rest =>
    have := decidableStartsInTheOpen rest
    inferInstanceAs (Decidable (_ ∧ _ ∧ _))

/-! ### Two scans of the same lines -/

/-- Whether a scan before some lines is within the methods of a class, and no class start stands in
the lines that it takes without asking what they are. -/
inductive WithinMethods (lines : List String) : Place → Prop where
  | betweenMethods (owner : Owner) : WithinMethods lines (.betweenMethods owner)
  | methodName (owner : Owner) (hunasked : ∀ line ∈ lines.take 2, isClassStart line = false) :
    WithinMethods lines (.methodName owner)
  | methodType (owner : Owner) (name : String)
    (hunasked : ∀ line ∈ lines.take 1, isClassStart line = false) :
    WithinMethods lines (.methodType owner name)
  | body (owner : Owner) : WithinMethods lines (.body owner)

/-- How two scans stand before some lines, of which only the second shows virtual methods. -/
inductive Ahead (lines : List String) : Place → Place → Prop where
  /-- Both stand at the same place. -/
  | together (p : Place) : Ahead lines p p
  /-- The first has left the class whose methods the second still reads. -/
  | within {q : Place} (hq : WithinMethods lines q) : Ahead lines .betweenClasses q

/-- A line between methods is read alike by both scans, unless it heads virtual methods: then one
leaves the class and the other goes on with it. -/
theorem stepBetweenMethods_virtualMethods (s : Suppression) (owner : Owner) (line : String) :
    stepBetweenMethods ⟨s, true⟩ owner line = stepBetweenMethods ⟨s, false⟩ owner line ∨
      headsVirtualMethods line = true ∧
        stepBetweenMethods ⟨s, true⟩ owner line = (.betweenMethods owner, []) ∧
        stepBetweenMethods ⟨s, false⟩ owner line = stepBetweenClasses line := by
  by_cases hblank : Text.allBlank line = true
  · simp [stepBetweenMethods, hblank]
  by_cases hstart : isMethodStart line = true
  · simp [stepBetweenMethods, hblank, hstart]
  by_cases hvirtual : headsVirtualMethods line = true <;>
    simp [stepBetweenMethods, hblank, hstart, hvirtual]

/-- Two scans at the same place put out the same for a line, and stay together unless one goes on
with a class that the other leaves. -/
theorem step_together (s : Suppression) (p : Place) {line : String} {rest : List String}
    (h : StartsInTheOpen (line :: rest)) :
    (step ⟨s, false⟩ p line).2 = (step ⟨s, true⟩ p line).2 ∧
      ((step ⟨s, false⟩ p line).1 = (step ⟨s, true⟩ p line).1 ∨
        (step ⟨s, false⟩ p line).1 = .betweenClasses ∧
          ∃ owner, (step ⟨s, true⟩ p line).1 = .betweenMethods owner) := by
  have hbetween (owner : Owner) :
      (stepBetweenMethods ⟨s, false⟩ owner line).1 = (stepBetweenMethods ⟨s, true⟩ owner line).1 ∨
        (stepBetweenMethods ⟨s, false⟩ owner line).1 = .betweenClasses ∧
          ∃ owner', (stepBetweenMethods ⟨s, true⟩ owner line).1 = .betweenMethods owner' := by
    rcases stepBetweenMethods_virtualMethods s owner line with heq | ⟨hvirtual, hon, hoff⟩
    · exact .inl (by rw [heq])
    · have hclass : isClassStart line ≠ true := fun hclass => by simp [h.2.1 hclass] at hvirtual
      rw [hon, hoff, stepBetweenClasses, if_neg hclass]
      exact .inr ⟨rfl, owner, rfl⟩
  cases p with
  | betweenMethods owner => exact ⟨by simp [step], hbetween owner⟩
  | body owner =>
    simp only [step, stepBody]
    cases BodyLine.ofLine line with
    | boundary => exact ⟨by simp, hbetween owner⟩
    | instruction text => exact ⟨rfl, .inl rfl⟩
    | metadata => exact ⟨rfl, .inl rfl⟩
  | _ => exact ⟨rfl, .inl rfl⟩

/-- A line between methods leads to a place that a scan which has left the class reaches as well, or
within the methods. -/
theorem ahead_stepBetweenMethods (options : FilterOptions) (owner : Owner) {line : String}
    {rest : List String} (h : StartsInTheOpen (line :: rest)) :
    Ahead rest (stepBetweenClasses line).1 (stepBetweenMethods options owner line).1 := by
  by_cases hclass : isClassStart line = true
  · have hblank := allBlank_of_isClassStart hclass
    have hstart := isMethodStart_of_isClassStart hclass
    simp only [stepBetweenMethods, hblank, hstart, h.2.1 hclass, Bool.and_false]
    exact .together _
  · have hleft : (stepBetweenClasses line).1 = .betweenClasses := by
      simp [stepBetweenClasses, hclass]
    rw [hleft]
    unfold stepBetweenMethods
    split_ifs with hblank hstart hvirtual
    · exact .within (.betweenMethods owner)
    · exact .within (.methodName owner (h.1 hstart))
    · exact .within (.betweenMethods owner)
    · rw [hleft]
      exact .together _

/-- A scan within the methods of a class meets the other one at the next class start. -/
theorem ahead_step_within (options : FilterOptions) {q : Place} {line : String}
    {rest : List String} (hq : WithinMethods (line :: rest) q)
    (h : StartsInTheOpen (line :: rest)) :
    Ahead rest (stepBetweenClasses line).1 (step options q line).1 := by
  have hplain (hclass : isClassStart line = false) :
      (stepBetweenClasses line).1 = .betweenClasses := by simp [stepBetweenClasses, hclass]
  cases hq with
  | betweenMethods owner => exact ahead_stepBetweenMethods options owner h
  | methodName owner hunasked =>
    obtain ⟨hclass, hrest⟩ := List.forall_mem_cons.1 hunasked
    rw [hplain hclass]
    exact .within (.methodType owner _ hrest)
  | methodType owner name hunasked =>
    obtain ⟨hclass, -⟩ := List.forall_mem_cons.1 hunasked
    rw [hplain hclass]
    exact .within (.body owner)
  | body owner =>
    simp only [step, stepBody]
    cases hline : BodyLine.ofLine line with
    | boundary => exact ahead_stepBetweenMethods options owner h
    | instruction text =>
      rw [hplain (isClassStart_of_inside (by simp [hline]))]
      exact .within (.body owner)
    | metadata =>
      rw [hplain (isClassStart_of_inside (by simp [hline]))]
      exact .within (.body owner)

/-! ### What the rest of a dump says to both -/

/-- Whether a class has at least the methods of another one of the same name, and these first. -/
structure ClassReport.Extends (c d : ClassReport) : Prop where
  name : c.name = d.name
  methods : c.methods <+: d.methods

/-- Whether an outline says what another one says, and only has more methods in its classes. -/
structure Outline.Extends (o o' : Outline) : Prop where
  instructions : o.instructions = o'.instructions
  methods : o.methods <+: o'.methods
  classes : List.Forall₂ ClassReport.Extends o.classes o'.classes

theorem Outline.Extends.foldr_precededBy {o o' : Outline} (h : o.Extends o') (items : List Item) :
    (items.foldr Outline.precededBy o).Extends (items.foldr Outline.precededBy o') := by
  induction items with
  | nil => exact h
  | cons item items ih =>
    obtain ⟨hinstructions, hmethods, hclasses⟩ := ih
    cases item with
    | heading name => exact ⟨rfl, List.prefix_rfl, .cons ⟨rfl, hmethods⟩ hclasses⟩
    | method name type owner =>
      refine ⟨rfl, ?_, hclasses⟩
      simpa [Outline.precededBy, hinstructions] using hmethods
    | instruction text =>
      exact ⟨by simp [Outline.precededBy, hinstructions], hmethods, hclasses⟩
    | gap => exact ⟨rfl, hmethods, hclasses⟩

/-- Items that open no class leave the classes behind them as they are. -/
theorem classes_foldr_precededBy {items : List Item}
    (h : items.filterMap Item.heading? = []) (o : Outline) :
    (items.foldr Outline.precededBy o).classes = o.classes := by
  induction items with
  | nil => rfl
  | cons item items ih =>
    cases item with
    | heading name => simp [Item.heading?] at h
    | _ => exact ih (by simpa [Item.heading?] using h)

/-- What is left of a dump says to both scans the same classes; and it says the same to them where
they stand at the same place. -/
structure Covers (p q : Place) (o o' : Outline) : Prop where
  classes : List.Forall₂ ClassReport.Extends o.classes o'.classes
  extends_of_eq : p = q → o.Extends o'

theorem WithinMethods.ne_betweenClasses {lines : List String} {q : Place}
    (h : WithinMethods lines q) : Place.betweenClasses ≠ q := by
  cases h <;> simp

theorem WithinMethods.under {lines : List String} {q : Place} (h : WithinMethods lines q)
    (s : Suppression) : WithinMethods lines (q.under s) := by
  cases h <;> constructor <;> assumption

theorem WithinMethods.headings_step {q : Place} {line : String} {rest : List String}
    (h : WithinMethods (line :: rest) q) (options : FilterOptions) :
    (step options q line).2.filterMap Item.heading? = [] := by
  have hannounced : announced q (line :: rest) = [] := by cases h <;> rfl
  rw [Bytecode.headings_step options q line rest, hannounced, List.filter_nil]

theorem covers_outlineFrom {lines : List String} {p q : Place} (hahead : Ahead lines p q)
    (h : StartsInTheOpen lines) :
    Covers p q (outlineFrom false p lines) (outlineFrom true q lines) := by
  induction lines generalizing p q with
  | nil =>
    cases hahead with
    | together p =>
      have heq : outlineFrom false p [] = outlineFrom true p [] := by
        rw [outlineFrom_nil, outlineFrom_nil]
      rw [heq]
      have hsame : (outlineFrom true p []).Extends (outlineFrom true p []) :=
        ⟨rfl, List.prefix_rfl, List.forall₂_same.2 fun _ _ => ⟨rfl, List.prefix_rfl⟩⟩
      exact ⟨hsame.classes, fun _ => hsame⟩
    | within hq =>
      refine ⟨?_, fun heq => absurd heq hq.ne_betweenClasses⟩
      rw [outlineFrom_nil, outlineFrom_nil]
      cases hq <;> exact .nil
  | cons line rest ih =>
    rw [outlineFrom_cons, outlineFrom_cons]
    cases hahead with
    | together p =>
      obtain ⟨hitems, hplaces⟩ := step_together .none (p.under .none) h
      rw [hitems]
      suffices hrest : (outlineFrom false (step ⟨.none, false⟩ (p.under .none) line).1 rest).Extends
          (outlineFrom true (step ⟨.none, true⟩ (p.under .none) line).1 rest) by
        have hall := hrest.foldr_precededBy (step ⟨.none, true⟩ (p.under .none) line).2
        exact ⟨hall.classes, fun _ => hall⟩
      rcases hplaces with heq | ⟨hoff, owner, hon⟩
      · rw [heq]
        exact (ih (.together _) h.2.2).extends_of_eq rfl
      · -- Between classes nothing belongs to a method or a class any more.
        have hfits := fits_outlineFrom false .betweenClasses rest
        have hfits' := fits_outlineFrom true (.betweenMethods owner) rest
        rw [hoff, hon]
        refine ⟨hfits.1.trans hfits'.symm, ?_, (ih (.within (.betweenMethods owner)) h.2.2).classes⟩
        rw [hfits.2]
        exact List.nil_prefix
    | within hq =>
      refine ⟨?_, fun heq => absurd heq hq.ne_betweenClasses⟩
      have hnext := ahead_step_within ⟨.none, true⟩ (hq.under .none) h
      rw [classes_foldr_precededBy (by simp [step]),
        classes_foldr_precededBy ((hq.under .none).headings_step _)]
      exact (ih hnext h.2.2).classes

/-! ### Whole dumps -/

theorem headings_items (c : ClassReport) : c.items.filterMap Item.heading? = [c.name] := by
  have hmethod (m : MethodReport) : (m.items c.name).filterMap Item.heading? = [] := by
    simp [MethodReport.items, Item.heading?, List.filterMap_cons, List.filterMap_eq_nil_iff]
  rw [ClassReport.items, List.filterMap_cons, List.filterMap_flatMap]
  simp [Item.heading?, hmethod]

theorem classNames_condense_eq_map (s : Suppression) (v : Bool) (lines : List String) :
    classNames (condense ⟨s, v⟩ lines) =
      ((report v lines).filter fun c => !s.hides c.name).map ClassReport.name := by
  have hitems : (scanner ⟨s, v⟩).outputFrom .betweenClasses lines = (scanner ⟨s, v⟩).scan lines :=
    (Scanner.scan_eq_outputFrom _ _).symm
  rw [classNames_condense, hitems, scan_eq_report, List.filterMap_flatMap, List.map_eq_flatMap]
  simp only [headings_items]

/-- A condensed dump that shows virtual methods has the class lines of the one that does not, in the
same order, and the methods of each class begin with those of the other one. -/
theorem condense_virtualMethods (s : Suppression) {lines : List String}
    (h : StartsInTheOpen lines) :
    let shown v := (report v lines).filter fun c => !s.hides c.name
    classNames (condense ⟨s, true⟩ lines) = classNames (condense ⟨s, false⟩ lines) ∧
      (∀ v, condense ⟨s, v⟩ lines = renderReport (shown v)) ∧
      List.Forall₂ ClassReport.Extends (shown false) (shown true) := by
  intro shown
  have hall : List.Forall₂ ClassReport.Extends (report false lines) (report true lines) := by
    have hcovers := covers_outlineFrom (.together .betweenClasses) h
    simpa [report, outlineFrom, Scanner.scan_eq_outputFrom, scanner] using hcovers.classes
  have hshown : List.Forall₂ ClassReport.Extends (shown false) (shown true) :=
    List.rel_filter (fun c d hcd => by simp [hcd.name]) hall
  have hnames : (shown false).map ClassReport.name = (shown true).map ClassReport.name :=
    List.forall₂_eq_eq_eq ▸ List.forall₂_map_left_iff.2
      (List.forall₂_map_right_iff.2 (hshown.imp fun _ _ hcd => hcd.name))
  refine ⟨?_, fun v => ?_, hshown⟩
  · rw [classNames_condense_eq_map, classNames_condense_eq_map, hnames]
  · rw [condense, scan_eq_report, render_items]

/-- A class with a virtual method behind a direct one, which is not ended, and another class. -/
def virtualDump : List String :=
  ["Class #0 -", "  Class descriptor  : 'La/First;'", "  Direct methods    -",
    "    #0 : (in La/First;)", "      name          : 'f'", "      type          : '()V'",
    "000154: 0e00 |0000: return-void", "  Virtual methods   -", "    #0 : (in La/First;)",
    "      name          : 'g'", "      type          : '()I'", "Class #1 -",
    "  Class descriptor  : 'Lb/Second;'", "  Direct methods    -"]

theorem condense_virtualMethods_virtualDump :
    StartsInTheOpen virtualDump ∧
      (let shown v := (report v virtualDump).filter fun c => !Suppression.none.hides c.name
       classNames (condense ⟨.none, true⟩ virtualDump) =
          classNames (condense ⟨.none, false⟩ virtualDump) ∧
        (∀ v, condense ⟨.none, v⟩ virtualDump = renderReport (shown v)) ∧
        List.Forall₂ ClassReport.Extends (shown false) (shown true)) ∧
      report false virtualDump =
        [⟨"a.First", [⟨"f", "()V", ["0000: return-void"]⟩]⟩, ⟨"b.Second", []⟩] ∧
      report true virtualDump =
        [⟨"a.First", [⟨"f", "()V", ["0000: return-void"]⟩, ⟨"g", "()I", []⟩]⟩,
          ⟨"b.Second", []⟩] := by
  have hopen : StartsInTheOpen virtualDump := by decide +kernel
  exact ⟨hopen, condense_virtualMethods .none hopen, by decide +kernel, by decide +kernel⟩

end SnippetLens.Bytecode
