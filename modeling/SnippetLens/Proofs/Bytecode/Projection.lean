import SnippetLens.Bytecode.Scan

/-!
Hiding classes is a projection.

The scan that hides nothing says all there is to say about a dump: its report. A scan that hides
some classes walks through the same places, line by line, and puts out the same items less those
of the hidden classes. So what it writes is the report without these classes, whatever the dump
looks like and wherever it breaks off.

The two scans are compared through an `Outline`, which is what the rest of a dump says when the
scan stands in the middle of it. `Follows` is the diagram of one line: both scans go to the same
place, and what the hiding one still has to write before the line is what it writes for the line
and what it still has to write behind it.
-/

namespace SnippetLens.Bytecode

open Listing

/-! ### Reports -/

/-- What the rest of a listing says, read from a place inside it: the instructions that belong to
the method under way, the methods after it that belong to the class under way, and the classes
after that. -/
structure Outline where
  instructions : List String := []
  methods : List MethodReport := []
  classes : List ClassReport := []
  deriving DecidableEq, Repr

namespace Outline

def precededBy : Item → Outline → Outline
  | .heading name, o => { classes := ⟨name, o.methods⟩ :: o.classes }
  | .method name type _, o =>
    { methods := ⟨name, type, o.instructions⟩ :: o.methods, classes := o.classes }
  | .instruction text, o => { o with instructions := text :: o.instructions }
  | .gap, o => { o with instructions := [] }

def ofItems (items : List Item) : Outline :=
  items.foldr precededBy {}

theorem ofItems_append (items rest : List Item) :
    ofItems (items ++ rest) = items.foldr precededBy (ofItems rest) := by
  simp [ofItems]

/-- Whether an outline gives nothing to a class or a method that is not under way. -/
@[simp] def Fits (o : Outline) : Place → Prop
  | .betweenClasses | .descriptor => o.instructions = [] ∧ o.methods = []
  | .beforeMethods _ | .betweenMethods _ | .methodName _ | .methodType _ _ => o.instructions = []
  | .body _ => True

end Outline

/-- The report of a dump: all of its classes, those included that a reader may want to hide. -/
def report (virtualMethods : Bool) (lines : List String) : List ClassReport :=
  (Outline.ofItems ((scanner ⟨.none, virtualMethods⟩).scan lines)).classes

/-- The text of a method of the class `owner`: its header, its instructions and a blank line. -/
def MethodReport.text (owner : String) (m : MethodReport) : String :=
  "    " ++ m.name ++ m.type ++ " // " ++ owner ++ "." ++ m.name ++ "()\n" ++
    String.join (m.instructions.map fun text => "        " ++ text ++ "\n") ++ "\n"

/-- The text of a report: the heading of each class with its methods below. -/
def renderReport (classes : List ClassReport) : String :=
  String.join (classes.map fun c =>
    "class " ++ c.name ++ "\n" ++ String.join (c.methods.map (MethodReport.text c.name)))

theorem toList_render_method (owner : String) (m : MethodReport) :
    (render (m.items owner)).toList = (m.text owner).toList := by
  simp [render, MethodReport.items, MethodReport.text, Item.render, List.flatMap_map]

theorem toList_render_class (c : ClassReport) :
    (render c.items).toList = ("class " ++ c.name ++ "\n" ++
      String.join (c.methods.map (MethodReport.text c.name))).toList := by
  have hmethods : (render (c.methods.flatMap (MethodReport.items c.name))).toList =
      (String.join (c.methods.map (MethodReport.text c.name))).toList := by
    induction c.methods with
    | nil => rfl
    | cons m methods ih =>
      rw [List.flatMap_cons, render_append, ih, toList_render_method]
      simp
  have hheading : c.items = [.heading c.name] ++ c.methods.flatMap (MethodReport.items c.name) :=
    rfl
  rw [hheading, render_append, hmethods]
  simp [render, Item.render]

theorem render_items (classes : List ClassReport) :
    render (classes.flatMap ClassReport.items) = renderReport classes := by
  apply String.toList_injective
  induction classes with
  | nil => rfl
  | cons c classes ih =>
    rw [List.flatMap_cons, render_append, ih, toList_render_class]
    simp [renderReport]

/-! ### Two scans of one dump -/

def Owner.under (s : Suppression) (owner : Owner) : Owner :=
  { owner with shown := !s.hides owner.name }

@[simp] theorem under_under (s t : Suppression) (owner : Owner) :
    (owner.under t).under s = owner.under s := rfl

@[simp] theorem puts_nil (owner : Owner) : owner.puts [] = [] := by
  simp [Owner.puts]

theorem puts_append (owner : Owner) (items rest : List Item) :
    owner.puts (items ++ rest) = owner.puts items ++ owner.puts rest := by
  cases h : owner.shown <;> simp [Owner.puts, h]

@[simp] theorem puts_under_none (owner : Owner) (items : List Item) :
    (owner.under .none).puts items = items := by
  simp [Owner.puts, Owner.under]

@[simp] def Place.under (s : Suppression) : Place → Place
  | .betweenClasses => .betweenClasses
  | .descriptor => .descriptor
  | .beforeMethods owner => .beforeMethods (owner.under s)
  | .betweenMethods owner => .betweenMethods (owner.under s)
  | .methodName owner => .methodName (owner.under s)
  | .methodType owner name => .methodType (owner.under s) name
  | .body owner => .body (owner.under s)

@[simp] def Place.pending (o : Outline) : Place → List Item
  | .betweenClasses | .descriptor => []
  | .beforeMethods owner | .betweenMethods owner | .methodName owner | .methodType owner _ =>
    owner.puts (o.methods.flatMap (MethodReport.items owner.name))
  | .body owner =>
    owner.puts (o.instructions.map .instruction ++
      .gap :: o.methods.flatMap (MethodReport.items owner.name))

def Place.items (s : Suppression) (o : Outline) (p : Place) : List Item :=
  p.pending o ++ (o.classes.filter fun c => !s.hides c.name).flatMap ClassReport.items

/-- A class that is opened puts out its heading, and goes before the classes after it. -/
theorem items_openClass (s : Suppression) (v : Bool) (name : String) (o : Outline) :
    (openClass ⟨s, v⟩ name).2 ++ (Place.beforeMethods (openClass ⟨s, v⟩ name).1).items s o =
      Place.descriptor.items s (o.precededBy (.heading name)) := by
  cases h : s.hides name <;>
    simp [openClass, Owner.puts, Place.items, Outline.precededBy, ClassReport.items, h]

@[simp] theorem stepBetweenClasses_silent (line : String) : (stepBetweenClasses line).2 = [] := by
  unfold stepBetweenClasses
  split <;> rfl

@[simp] theorem stepBetweenMethods_silent (options : FilterOptions) (owner : Owner)
    (line : String) : (stepBetweenMethods options owner line).2 = [] := by
  unfold stepBetweenMethods
  repeat' split
  all_goals simp

/-- One line as two scans read it from the same place `p`: what `shown` did, which hides the
classes of `s`, and what `full` did, which hides nothing. -/
structure Follows (s : Suppression) (p : Place) (shown full : Place × List Item) : Prop where
  /-- Both stand at the same place again. -/
  place : shown.1 = full.1.under s
  /-- The line gives nothing to a class or a method that was not under way. -/
  fits : ∀ o : Outline, o.Fits full.1 → (full.2.foldr Outline.precededBy o).Fits p
  /-- The scan that hides puts out its share of what the line says. -/
  items : ∀ o : Outline, o.Fits full.1 →
    shown.2 ++ (full.1.under s).items s o = (p.under s).items s (full.2.foldr Outline.precededBy o)

theorem follows_stepBetweenClasses (s : Suppression) (line : String) :
    Follows s .betweenClasses (stepBetweenClasses line) (stepBetweenClasses line) := by
  by_cases h : isClassStart line <;>
    constructor <;> simp [stepBetweenClasses, h, Place.items]

/-- A line that says nothing and is read as one between classes leaves the class under way, which
has no methods left. -/
theorem Follows.leave {s : Suppression} {shown full : Place × List Item}
    (h : Follows s .betweenClasses shown full) (hsilent : full.2 = []) (owner : Owner) :
    Follows s (.betweenMethods owner) shown full where
  place := h.place
  fits o ho := (h.fits o ho).1
  items o ho := by
    have hnone : o.methods = [] := by simpa [hsilent] using (h.fits o ho).2
    rw [h.items o ho]
    simp [Place.items, hsilent, hnone]

/-- A line that ends a body closes the method, and is read as one between methods after that. -/
theorem Follows.endBody {s : Suppression} {owner : Owner} {shown full : Place × List Item}
    (h : Follows s (.betweenMethods owner) shown full) :
    Follows s (.body owner) (shown.1, (owner.under s).puts [.gap] ++ shown.2)
      (full.1, (owner.under .none).puts [.gap] ++ full.2) where
  place := h.place
  fits _ _ := trivial
  items o ho := by
    rw [List.append_assoc, h.items o ho]
    simp only [Place.items, Place.under, Place.pending]
    rw [← List.append_assoc, ← puts_append]
    rfl

theorem follows_stepBetweenMethods (s : Suppression) (v : Bool) (owner : Owner) (line : String) :
    Follows s (.betweenMethods owner) (stepBetweenMethods ⟨s, v⟩ (owner.under s) line)
      (stepBetweenMethods ⟨.none, v⟩ (owner.under .none) line) := by
  unfold stepBetweenMethods
  by_cases hblank : Text.allBlank line
  · constructor <;> simp [hblank, Place.items, Owner.under]
  by_cases hstart : isMethodStart line
  · constructor <;> simp [hblank, hstart, Place.items, Owner.under]
  by_cases hvirtual : (v && headsVirtualMethods line) = true
  · constructor <;> simp [hblank, hstart, hvirtual, Place.items, Owner.under]
  have hleave := (follows_stepBetweenClasses s line).leave (stepBetweenClasses_silent line) owner
  simpa [hblank, hstart, hvirtual] using hleave

theorem follows_stepBody (s : Suppression) (v : Bool) (owner : Owner) (line : String) :
    Follows s (.body owner) (stepBody ⟨s, v⟩ (owner.under s) line)
      (stepBody ⟨.none, v⟩ (owner.under .none) line) := by
  unfold stepBody
  cases BodyLine.ofLine line with
  | instruction text =>
    refine ⟨rfl, fun _ _ => trivial, fun o _ => ?_⟩
    simp only [Place.items, Place.under, Place.pending, puts_under_none, List.foldr_cons]
    rw [← List.append_assoc, under_under, ← puts_append]
    rfl
  | metadata => constructor <;> simp [Place.items, Owner.under]
  | boundary => exact (follows_stepBetweenMethods s v owner line).endBody

theorem follows_step (s : Suppression) (v : Bool) (p : Place) (line : String) :
    Follows s p (step ⟨s, v⟩ (p.under s) line) (step ⟨.none, v⟩ (p.under .none) line) := by
  cases p with
  | betweenClasses => exact follows_stepBetweenClasses s line
  | descriptor =>
    refine ⟨rfl, fun _ _ => ⟨rfl, rfl⟩, fun o _ => ?_⟩
    exact items_openClass s v _ o
  | beforeMethods owner =>
    by_cases h : headsDirectMethods line <;>
      constructor <;> simp [step, h, Place.items, Owner.under]
  | betweenMethods owner => exact follows_stepBetweenMethods s v owner line
  | methodName owner => constructor <;> simp [step, Place.items, Owner.under]
  | methodType owner name =>
    refine ⟨rfl, fun o _ => ?_, fun o _ => ?_⟩
    · simp [step, Outline.precededBy]
    · simp only [step, Place.items, Place.under, Place.pending, puts_under_none, List.foldr_cons]
      rw [← List.append_assoc, under_under, ← puts_append]
      simp [Outline.precededBy, MethodReport.items]
  | body owner => exact follows_stepBody s v owner line

/-! ### Whole scans -/

def outlineFrom (virtualMethods : Bool) (p : Place) (lines : List String) : Outline :=
  .ofItems ((scanner ⟨.none, virtualMethods⟩).outputFrom (p.under .none) lines)

theorem outlineFrom_cons (v : Bool) (p : Place) (line : String) (rest : List String) :
    outlineFrom v p (line :: rest) =
      (step ⟨.none, v⟩ (p.under .none) line).2.foldr Outline.precededBy
        (outlineFrom v (step ⟨.none, v⟩ (p.under .none) line).1 rest) := by
  -- The scan that hides nothing follows itself, so its place is not changed by `under`.
  have hplace := (follows_step .none v p line).place
  simp only [outlineFrom, Scanner.outputFrom, Outline.ofItems_append, ← hplace]
  rfl

theorem outlineFrom_nil (v : Bool) (p : Place) :
    outlineFrom v p [] =
      match p with
      | .descriptor => { classes := [⟨unknownName, []⟩] }
      | .methodName _ => { methods := [⟨unknownName, unknownName, []⟩] }
      | .methodType _ name => { methods := [⟨name, unknownName, []⟩] }
      | .betweenClasses | .beforeMethods _ | .betweenMethods _ | .body _ => {} := by
  cases p <;> simp [outlineFrom, Scanner.outputFrom, scanner, finish, Outline.ofItems] <;> rfl

theorem finish_under (s : Suppression) (v : Bool) (p : Place) :
    finish ⟨s, v⟩ (p.under s) = (p.under s).items s (outlineFrom v p []) := by
  rw [outlineFrom_nil]
  cases p with
  | descriptor =>
    have h := items_openClass s v unknownName {}
    simpa [finish, Place.items, Outline.precededBy] using h
  | methodName owner => simp [finish, Place.items, MethodReport.items]
  | methodType owner name => simp [finish, Place.items, MethodReport.items]
  | body owner => simp [finish, Place.items]
  | _ => simp [finish, Place.items]

theorem fits_outlineFrom (v : Bool) (p : Place) (lines : List String) :
    (outlineFrom v p lines).Fits p := by
  induction lines generalizing p with
  | nil => cases p <;> simp [outlineFrom_nil]
  | cons line rest ih =>
    rw [outlineFrom_cons]
    exact (follows_step .none v p line).fits _ (ih _)

/-- A scan that hides some classes puts out the rest of the outline less these classes. -/
theorem outputFrom_under (s : Suppression) (v : Bool) (p : Place) (lines : List String) :
    (scanner ⟨s, v⟩).outputFrom (p.under s) lines = (p.under s).items s (outlineFrom v p lines) := by
  induction lines generalizing p with
  | nil => exact finish_under s v p
  | cons line rest ih =>
    obtain ⟨hplace, -, hitems⟩ := follows_step s v p line
    rw [outlineFrom_cons, ← hitems _ (fits_outlineFrom v _ rest), ← ih, ← hplace]
    rfl

/-- The items of a scan are those of the classes of the report that are not hidden. -/
theorem scan_eq_report (s : Suppression) (v : Bool) (lines : List String) :
    (scanner ⟨s, v⟩).scan lines =
      ((report v lines).filter fun c => !s.hides c.name).flatMap ClassReport.items := by
  rw [Scanner.scan_eq_outputFrom]
  exact (outputFrom_under s v .betweenClasses lines).trans
    (by simp [Place.items, report, outlineFrom, Scanner.scan_eq_outputFrom, scanner])

/-- A condensed dump is the text of its report without the hidden classes, and the report does
not depend on what is hidden. -/
theorem condense_eq_renderReport (s : Suppression) (virtualMethods : Bool) (lines : List String) :
    condense ⟨s, virtualMethods⟩ lines =
      renderReport ((report virtualMethods lines).filter fun c => !s.hides c.name) := by
  rw [condense, scan_eq_report, render_items]

end SnippetLens.Bytecode
