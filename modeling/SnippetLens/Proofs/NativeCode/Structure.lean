import Mathlib.Data.List.Forall2
import Mathlib.Data.List.Induction
import SnippetLens.Proofs.NativeCode.Projection

/-!
What holds in every run over a native code dump, whatever its lines are.

The text written so far is always that of a report, and the region tells how the report ends: with a
class that has no methods yet, with one whose last method can still take instructions, or in any
way, if the next thing written can only be a class. Each line keeps this up. It adds nothing, or a
blank line and the capture of the line, or the capture alone.

A run is told as its turns, a turn being a line and the region it is met in. The scan stands in a
class if the header dispatched last is that of a shown class, and from the first method of that
class on it stands at a method of it.
-/

namespace SnippetLens.NativeCode

open Listing

/-! ### Reports under way -/

theorem items_concat_method (name : String) (methods : List MethodReport) (m : MethodReport) :
    (ClassReport.mk name (methods ++ [m])).items =
      (ClassReport.mk name methods).items ++ ((if methods = [] then [] else [.gap]) ++ m.items) := by
  cases methods with
  | nil => simp [ClassReport.items, List.intercalate]
  | cons first others => simp [ClassReport.items, intercalate_singleton_cons]

theorem items_concat_instruction (name : String) (methods : List MethodReport) (signature : String)
    (instructions : List (String × String)) (i : String × String) :
    (ClassReport.mk name (methods ++ [⟨signature, instructions ++ [i]⟩])).items =
      (ClassReport.mk name (methods ++ [⟨signature, instructions⟩])).items ++
        [.instruction i.1 i.2] := by
  rw [items_concat_method, items_concat_method]
  simp [MethodReport.items]

def Leaves : Region → List ClassReport → Prop
  | .preamble, _ | .outside, _ => True
  | .classTop, report => ∃ front name, report = front ++ [⟨name, []⟩]
  | .beforeCode, report | .code, report =>
    ∃ front name methods m, report = front ++ [⟨name, methods ++ [m]⟩]

/-- The lines that capture something, of the lines of a class. -/
def ClassReport.entries (c : ClassReport) : List Item :=
  .heading c.name :: c.methods.flatMap MethodReport.items

theorem MethodReport.filter_items (m : MethodReport) : m.items.filter (· ≠ .gap) = m.items := by
  rw [List.filter_eq_self]
  intro item hitem
  rcases List.mem_cons.1 hitem with rfl | hitem
  · rfl
  · obtain ⟨i, -, rfl⟩ := List.mem_map.1 hitem
    rfl

theorem ClassReport.filter_items (c : ClassReport) :
    c.items.filter (· ≠ .gap) = c.entries := by
  have hmethods (methods : List MethodReport) :
      (methods.flatMap fun m => .gap :: m.items).filter (· ≠ .gap) =
        methods.flatMap MethodReport.items := by
    induction methods with
    | nil => rfl
    | cons m methods ih =>
      rw [List.flatMap_cons, List.filter_append, ih, List.filter_cons_of_neg (by simp),
        m.filter_items, List.flatMap_cons]
  obtain ⟨name, methods⟩ := c
  cases methods with
  | nil => rfl
  | cons m methods =>
    rw [ClassReport.items, List.map_cons, intercalate_singleton_cons, List.flatMap_map,
      List.filter_cons_of_pos (by simp), List.filter_append, m.filter_items, hmethods]
    rfl

def Item.Captures : Item → String → Prop
  | .heading name, line => (classHeader? line).map dotted = some name
  | .gap, _ => False
  | .signature text, line => methodHeader? line = some text
  | .instruction address text, line => instruction? line = some (address, text)

/-! ### Runs -/

section Runs

variable (options : FilterOptions)

/-- One line of a run, added to the report of the lines before it. -/
theorem exists_report_step {region : Region} {report : List ClassReport}
    (hends : Leaves region report)
    (hshown : ∀ c ∈ report, options.suppression.hides c.name = false) (line : String) :
    ∃ next : List ClassReport, Leaves (step rules options region line).1 next ∧
      (∀ c ∈ next, options.suppression.hides c.name = false) ∧
      next.flatMap ClassReport.items =
        report.flatMap ClassReport.items ++ (step rules options region line).2 := by
  have heffect := effect_step options region line
  generalize step rules options region line = after at heffect
  obtain ⟨region', items⟩ := after
  cases heffect with
  | opens | beforeOpening | hiddenClass => exact ⟨report, trivial, hshown, by simp⟩
  | code | aboveCode | dropped => exact ⟨report, hends, hshown, by simp⟩
  | @instruction i =>
    obtain ⟨front, name, methods, ⟨signature, instructions⟩, rfl⟩ := hends
    refine ⟨front ++ [⟨name, methods ++ [⟨signature, instructions ++ [i]⟩]⟩],
      ⟨front, name, methods, _, rfl⟩, ?_, ?_⟩
    · simpa [or_imp, forall_and] using hshown
    · simp [items_concat_instruction]
  | @firstMethod signature =>
    obtain ⟨front, name, rfl⟩ := hends
    refine ⟨front ++ [⟨name, [] ++ [⟨signature, []⟩]⟩], ⟨front, name, [], _, rfl⟩, ?_, ?_⟩
    · simpa [or_imp, forall_and] using hshown
    · simp [ClassReport.items, MethodReport.items]
  | @nextMethod signature =>
    obtain ⟨front, name, methods, m, rfl⟩ := hends
    refine ⟨front ++ [⟨name, (methods ++ [m]) ++ [⟨signature, []⟩]⟩],
      ⟨front, name, methods ++ [m], _, rfl⟩, ?_, ?_⟩
    · simpa [or_imp, forall_and] using hshown
    · rw [List.flatMap_append, List.flatMap_append, List.flatMap_singleton,
        List.flatMap_singleton, items_concat_method _ (methods ++ [m])]
      simp [MethodReport.items]
  | @shownClass _ name _ _ _ hname =>
    refine ⟨report ++ [⟨dotted name, []⟩], ⟨report, _, rfl⟩, ?_, ?_⟩
    · intro c hc
      rcases List.mem_append.1 hc with hc | hc
      · exact hshown c hc
      · rw [List.mem_singleton.1 hc]
        exact hname
    · simp [ClassReport.items, List.intercalate]

/-- The lines of a run, added to the report of the lines before them. -/
theorem exists_report {region : Region} {report : List ClassReport} (hends : Leaves region report)
    (hshown : ∀ c ∈ report, options.suppression.hides c.name = false) (lines : List String) :
    ∃ next : List ClassReport, (∀ c ∈ next, options.suppression.hides c.name = false) ∧
      next.flatMap ClassReport.items =
        report.flatMap ClassReport.items ++ (scanner options).outputFrom region lines := by
  induction lines generalizing region report with
  | nil => exact ⟨report, hshown, by simp⟩
  | cons line rest ih =>
    obtain ⟨next, hnext, hnextShown, hitems⟩ := exists_report_step options hends hshown line
    obtain ⟨last, hlastShown, hlast⟩ := ih hnext hnextShown
    refine ⟨last, hlastShown, ?_⟩
    rw [hlast, hitems, outputFrom_cons, List.append_assoc]

/-- What a line behind the opening one puts out captures that line, a blank line aside. -/
theorem captured_step {region : Region} (hregion : region ≠ .preamble) (line : String) :
    ∃ sources : List String, sources.Sublist [line] ∧
      List.Forall₂ Item.Captures ((step rules options region line).2.filter (· ≠ .gap))
        sources := by
  have hnothing : ∃ sources : List String, sources.Sublist [line] ∧
      List.Forall₂ Item.Captures [] sources := ⟨[], List.nil_sublist _, .nil⟩
  have hline {item : Item} (h : item.Captures line) : ∃ sources : List String,
      sources.Sublist [line] ∧ List.Forall₂ Item.Captures [item] sources :=
    ⟨[line], List.Sublist.refl _, .cons h .nil⟩
  have heffect := effect_step options region line
  generalize step rules options region line = after at heffect
  obtain ⟨region', items⟩ := after
  cases heffect with
  | opens | beforeOpening => exact absurd rfl hregion
  | code | aboveCode | hiddenClass | dropped => exact hnothing
  | instruction h => exact hline h
  | firstMethod h | nextMethod h => exact hline h
  | shownClass h => exact hline (by simp [Item.Captures, h])

/-- What is put out behind the opening line captures lines, each one once and in their order. -/
theorem captured_outputFrom {region : Region} (hregion : region ≠ .preamble) (lines : List String) :
    ∃ sources : List String, sources.Sublist lines ∧
      List.Forall₂ Item.Captures (((scanner options).outputFrom region lines).filter (· ≠ .gap))
        sources := by
  induction lines generalizing region with
  | nil => exact ⟨[], List.nil_sublist _, .nil⟩
  | cons line rest ih =>
    have hnext : (step rules options region line).1 ≠ .preamble :=
      regionAfter_ne_preamble options hregion [line]
    obtain ⟨here, hhere, hcaptures⟩ := captured_step options hregion line
    obtain ⟨later, hlater, hrest⟩ := ih hnext
    refine ⟨here ++ later, hhere.append hlater, ?_⟩
    rw [outputFrom_cons, List.filter_append]
    exact List.rel_append hcaptures hrest

end Runs

/-! ### Turns -/

/-- A line of a dump, and the region that a run meets it in. -/
structure Turn where
  region : Region
  line : String
  deriving DecidableEq, Repr

namespace Turn

def items (options : FilterOptions) (t : Turn) : List Item :=
  (step rules options t.region t.line).2

def class? (t : Turn) : Option String :=
  if t.region = .preamble ∨ t.region = .beforeCode then none
  else (classHeader? t.line).map dotted

end Turn

def lastClass (past : List Turn) : Option String :=
  (past.filterMap Turn.class?).getLast?

theorem lastClass_concat_of_none {past : List Turn} {t : Turn} (h : t.class? = none) :
    lastClass (past ++ [t]) = lastClass past := by
  simp [lastClass, h]

theorem lastClass_concat_of_some {past : List Turn} {t : Turn} {name : String}
    (h : t.class? = some name) : lastClass (past ++ [t]) = some name := by
  simp [lastClass, h]

section Turns

variable (options : FilterOptions)

def turns : Region → List String → List Turn
  | _, [] => []
  | region, line :: rest => ⟨region, line⟩ :: turns (step rules options region line).1 rest

/-- Whether a method has been written since a class header was dispatched. -/
def MethodSince (past : List Turn) : Prop :=
  ∃ above header below signature, past = above ++ header :: below ∧
    Item.signature signature ∈ header.items options ∧ ∀ t ∈ header :: below, t.class? = none

theorem turns_append (region : Region) (front back : List String) :
    turns options region (front ++ back) =
      turns options region front ++ turns options (regionAfter options region front) back := by
  induction front generalizing region with
  | nil => rfl
  | cons line front ih => simp [turns, ih]

theorem outputFrom_eq_flatMap_turns (region : Region) (lines : List String) :
    (scanner options).outputFrom region lines =
      (turns options region lines).flatMap (Turn.items options) := by
  induction lines generalizing region with
  | nil => rfl
  | cons line rest ih =>
    rw [outputFrom_cons, ih]
    rfl

/-- A turn of a run is met in the region behind the lines of the turns before it. -/
theorem exists_lines_of_turns {region : Region} {lines : List String} {past rest : List Turn}
    {turn : Turn} (h : turns options region lines = past ++ turn :: rest) :
    ∃ front, past = turns options region front ∧
      turn.region = regionAfter options region front := by
  induction past generalizing region lines with
  | nil =>
    cases lines with
    | nil => cases h
    | cons line lines =>
      obtain ⟨rfl, -⟩ := List.cons.inj h
      exact ⟨[], rfl, rfl⟩
  | cons first past ih =>
    cases lines with
    | nil => cases h
    | cons line lines =>
      obtain ⟨rfl, htail⟩ := List.cons.inj h
      obtain ⟨front, rfl, hregion⟩ := ih htail
      exact ⟨line :: front, rfl, hregion⟩

theorem regionAfter_concat (region : Region) (front : List String) (line : String) :
    regionAfter options region (front ++ [line]) =
      (step rules options (regionAfter options region front) line).1 := by
  simp [regionAfter]

theorem turns_concat (region : Region) (front : List String) (line : String) :
    turns options region (front ++ [line]) =
      turns options region front ++ [⟨regionAfter options region front, line⟩] :=
  turns_append options region front [line]

variable {options}

/-- At a turn that dispatches no class header the scan stays in its class, or out of one. -/
theorem insideClass_step_of_none {t : Turn} (h : t.class? = none) :
    (step rules options t.region t.line).1.insideClass = t.region.insideClass := by
  obtain ⟨region, line⟩ := t
  have heffect := effect_step options region line
  generalize step rules options region line = after at heffect
  obtain ⟨region', items⟩ := after
  cases heffect with
  | hiddenClass hclass hpreamble hbefore =>
    simp [Turn.class?, hclass, hpreamble, hbefore] at h
  | shownClass hclass hpreamble hbefore =>
    simp [Turn.class?, hclass, hpreamble, hbefore] at h
  | _ => rfl

/-- A class header that is dispatched leads into its class, or out of all classes. -/
theorem step_of_class?_eq_some {t : Turn} {name : String} (h : t.class? = some name) :
    step rules options t.region t.line =
      if options.suppression.hides name then (.outside, []) else (.classTop, [.heading name]) := by
  rw [Turn.class?] at h
  split at h
  · cases h
  · rename_i hregion
    obtain ⟨hpreamble, hbefore⟩ := not_or.1 hregion
    obtain ⟨internalName, hclass, rfl⟩ := Option.map_eq_some_iff.1 h
    exact step_of_class options hclass hpreamble hbefore

/-- The scan stands in a class when the header dispatched last is that of a shown one. -/
theorem insideClass_regionAfter (front : List String) :
    (regionAfter options .preamble front).insideClass =
      (lastClass (turns options .preamble front)).any fun name =>
        !options.suppression.hides name := by
  induction front using List.reverseRecOn with
  | nil => rfl
  | append_singleton front line ih =>
    rw [regionAfter_concat, turns_concat]
    -- A line that dispatches no class header leaves both sides as they are.
    cases hclass : (Turn.mk (regionAfter options .preamble front) line).class? with
    | none =>
      rw [lastClass_concat_of_none hclass, ← ih]
      exact insideClass_step_of_none hclass
    | some name =>
      rw [lastClass_concat_of_some hclass, step_of_class?_eq_some hclass]
      cases hname : options.suppression.hides name <;> simp [Region.insideClass, hname]

theorem MethodSince.concat {past : List Turn} (h : MethodSince options past) {t : Turn}
    (ht : t.class? = none) : MethodSince options (past ++ [t]) := by
  obtain ⟨above, header, below, signature, rfl, hsignature, hplain⟩ := h
  refine ⟨above, header, below ++ [t], signature, by simp, hsignature, ?_⟩
  intro other hother
  rw [← List.cons_append, List.mem_append, List.mem_singleton] at hother
  rcases hother with hother | rfl
  · exact hplain other hother
  · exact ht

/-- Behind a method header and in the code of a method, a method of the class has been written. -/
theorem methodSince_regionAfter {front : List String}
    (h : regionAfter options .preamble front = .beforeCode ∨
      regionAfter options .preamble front = .code) :
    MethodSince options (turns options .preamble front) := by
  induction front using List.reverseRecOn with
  | nil => rcases h with h | h <;> cases h
  | append_singleton front line ih =>
    rw [regionAfter_concat] at h
    rw [turns_concat]
    generalize regionAfter options .preamble front = region at ih h
    have hnew {signature : String} (hclass : (Turn.mk region line).class? = none)
        (hitems : Item.signature signature ∈ (Turn.mk region line).items options) :
        MethodSince options (turns options .preamble front ++ [⟨region, line⟩]) :=
      ⟨_, _, [], signature, rfl, hitems, by simpa using hclass⟩
    have heffect := effect_step options region line
    have hitems : (Turn.mk region line).items options = (step rules options region line).2 := rfl
    generalize step rules options region line = after at heffect h hitems
    obtain ⟨region', items⟩ := after
    -- A method header writes the method that is asked for; other lines keep the one from before.
    cases heffect with
    | code | aboveCode => exact (ih (by simp)).concat rfl
    | instruction hinstruction =>
      refine (ih (by simp)).concat ?_
      cases hclass : classHeader? line with
      | none => simp [Turn.class?, hclass]
      | some name => simp [instruction?_of_classHeader? hclass] at hinstruction
    | @firstMethod signature hmethod | @nextMethod signature hmethod =>
      refine @hnew signature ?_ (by simp [hitems])
      cases hclass : classHeader? line with
      | none => simp [Turn.class?, hclass]
      | some name => simp [methodHeader?_of_classHeader? hclass] at hmethod
    | dropped hclass => exact (ih h).concat (by simp [Turn.class?, hclass])
    | opens | beforeOpening | hiddenClass | shownClass => simp at h

theorem eq_code_of_instruction_mem {t : Turn} {address text : String}
    (h : Item.instruction address text ∈ t.items options) : t.region = .code := by
  have heffect := effect_step options t.region t.line
  rw [Turn.items] at h
  generalize step rules options t.region t.line = after at heffect h
  obtain ⟨region', items⟩ := after
  generalize t.region = region at heffect
  cases heffect with
  | instruction => rfl
  | _ => simp at h

/-- Nothing is written out of a class, unless a class header is dispatched. -/
theorem items_eq_nil_of_not_insideClass {t : Turn} (h : t.region.insideClass = false)
    (hclass : t.class? = none) : t.items options = [] := by
  obtain ⟨region, line⟩ := t
  have heffect := effect_step options region line
  rw [Turn.items]
  generalize step rules options region line = after at heffect ⊢
  obtain ⟨region', items⟩ := after
  cases heffect with
  | instruction | firstMethod | nextMethod => cases h
  | shownClass hheader hpreamble hbefore =>
    simp [Turn.class?, hheader, hpreamble, hbefore] at hclass
  | _ => rfl

/-- While the class dispatched last is a hidden one, nothing is written. -/
theorem items_eq_nil_of_lastClass {front : List String} {turn : Turn} {name : String}
    (hregion : turn.region = regionAfter options .preamble front)
    (hlast : lastClass (turns options .preamble front ++ [turn]) = some name)
    (hname : options.suppression.hides name = true) : turn.items options = [] := by
  cases hclass : turn.class? with
  | none =>
    rw [lastClass_concat_of_none hclass] at hlast
    refine items_eq_nil_of_not_insideClass ?_ hclass
    rw [hregion, insideClass_regionAfter, hlast]
    simp [hname]
  | some other =>
    rw [lastClass_concat_of_some hclass] at hlast
    obtain rfl := Option.some.inj hlast
    rw [Turn.items, step_of_class?_eq_some hclass, if_pos hname]

end Turns

/-- What is written for any lines is the text of a report without the hidden classes, whose lines
capture lines behind the opening one, each once and in their order. The scan stands in a class when
the header dispatched last is that of a shown one. An instruction is written behind a method of that
class, and nothing is written while the class dispatched last is hidden. -/
theorem condense_eq_renderReport_captured (options : FilterOptions) (lines : List String) :
    (∃ report : List ClassReport, condense options lines = renderReport report ∧
      report.flatMap ClassReport.items =
        (turns options .preamble lines).flatMap (Turn.items options) ∧
      (∀ c ∈ report, options.suppression.hides c.name = false) ∧
      ∃ sources : List String, sources.Sublist (listed lines) ∧
        List.Forall₂ Item.Captures (report.flatMap ClassReport.entries) sources) ∧
    ∀ past turn rest, turns options .preamble lines = past ++ turn :: rest →
      (turn.region.insideMethod = true → turn.region.insideClass = true) ∧
      (turn.region.insideClass = true ↔
        ∃ name, lastClass past = some name ∧ options.suppression.hides name = false) ∧
      (∀ address text, Item.instruction address text ∈ turn.items options →
        turn.region.insideClass = true ∧ MethodSince options past) ∧
      ∀ name, lastClass (past ++ [turn]) = some name → options.suppression.hides name = true →
        turn.items options = [] := by
  constructor
  · have hempty : Leaves .preamble [] := trivial
    have hlisted : Region.outside ≠ .preamble := by decide
    obtain ⟨report, hshown, hitems⟩ := exists_report options hempty (by simp) lines
    obtain ⟨sources, hsources, hcaptures⟩ := captured_outputFrom options hlisted (listed lines)
    rw [List.flatMap_nil, List.nil_append] at hitems
    refine ⟨report, ?_, ?_, hshown, sources, hsources, ?_⟩
    · rw [← render_items, hitems, condense_eq_render_outputFrom]
    · rw [hitems, outputFrom_eq_flatMap_turns]
    · rw [← outputFrom_listed, ← hitems, List.filter_flatMap] at hcaptures
      simpa only [ClassReport.filter_items] using hcaptures
  · intro past turn rest hturns
    obtain ⟨front, rfl, hregion⟩ := exists_lines_of_turns options hturns
    refine ⟨?_, ?_, ?_, ?_⟩
    · cases turn.region <;> simp [Region.insideMethod, Region.insideClass]
    · rw [hregion, insideClass_regionAfter, Option.any_eq_true]
      simp
    · intro address text hmem
      have hcode : turn.region = .code := eq_code_of_instruction_mem hmem
      rw [hcode]
      exact ⟨rfl, methodSince_regionAfter (.inr (hregion ▸ hcode))⟩
    · intro name hlast hname
      exact items_eq_nil_of_lastClass hregion hlast hname

end SnippetLens.NativeCode
