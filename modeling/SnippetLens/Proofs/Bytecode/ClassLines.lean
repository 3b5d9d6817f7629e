import SnippetLens.Proofs.Bytecode.Pattern
import SnippetLens.Proofs.Bytecode.Projection
import SnippetLens.Text.Lines

/-!
Which classes a condensed dump names.

A dump declares a class with each class start, whose name is in the line behind it. The scan looks
for class starts only between classes and behind the methods of a class. Elsewhere it overlooks
them: before it has found the methods of a class, in the two lines behind a method start, and,
while virtual methods are shown, on a line that also heads virtual methods. A class whose start is
overlooked is not named, and what it holds goes to the class before it.

So the class lines name the declared classes that are shown exactly if all overlooked ones are
hidden anyway, which is the main statement here.
-/

namespace SnippetLens.Bytecode

open Listing Text

/-! ### The class lines of a text -/

def classNames (text : String) : List String :=
  (pieces '\n' text.toList).filterMap fun piece =>
    (after? "class ".toList (dropEnd '\n' piece)).map String.ofList

theorem classNames_line_append {line : String} (h : '\n' ∉ line.toList) (rest : String) :
    classNames (line ++ "\n" ++ rest) =
      ((after? "class ".toList line.toList).map String.ofList).toList ++ classNames rest := by
  have hcut : (line ++ "\n" ++ rest).toList = line.toList ++ '\n' :: rest.toList := by simp
  have hdrop : dropEnd '\n' (line.toList ++ ['\n']) = line.toList := by simp [dropEnd]
  rw [classNames, hcut, pieces_append_cons h, List.filterMap_cons, hdrop]
  cases after? "class ".toList line.toList <;> rfl

def Item.heading? : Item → Option String
  | .heading name => some name
  | .method .. | .instruction _ | .gap => none

def Item.OnOneLine : Item → Prop
  | .heading name => '\n' ∉ name.toList
  | .method name type owner => '\n' ∉ name.toList ∧ '\n' ∉ type.toList ∧ '\n' ∉ owner.toList
  | .instruction text => '\n' ∉ text.toList
  | .gap => True

/-- An item is written as one line, which is a class line if the item opens a class. -/
theorem exists_line_of_onOneLine {item : Item} (h : item.OnOneLine) :
    ∃ line : String, item.render = line ++ "\n" ∧ '\n' ∉ line.toList ∧
      (after? "class ".toList line.toList).map String.ofList = item.heading? := by
  cases item with
  | heading name =>
    refine ⟨"class " ++ name, rfl, ?_, ?_⟩
    · simpa [Item.OnOneLine] using h
    · simp [after?, Item.heading?]
  | method name type owner =>
    obtain ⟨hname, htype, howner⟩ := h
    refine ⟨"    " ++ name ++ type ++ " // " ++ owner ++ "." ++ name ++ "()", ?_, ?_, ?_⟩
    · exact (@String.append_assoc _ "()" "\n").symm
    · simp [hname, htype, howner]
    · simp [after?, Item.heading?]
  | instruction text =>
    refine ⟨"        " ++ text, rfl, ?_, ?_⟩
    · simpa [Item.OnOneLine] using h
    · simp [after?, Item.heading?]
  | gap => exact ⟨"", rfl, by simp, rfl⟩

theorem classNames_render {items : List Item} (h : ∀ item ∈ items, item.OnOneLine) :
    classNames (render items) = items.filterMap Item.heading? := by
  induction items with
  | nil => rfl
  | cons item items ih =>
    have hitems := ih fun other hother => h other (by simp [hother])
    obtain ⟨line, hrender, hline, hheading⟩ := exists_line_of_onOneLine (h item (by simp))
    have hcons : render (item :: items) = item.render ++ render items := by
      simp [render, String.join_cons]
    rw [hcons, hrender, classNames_line_append hline, hheading, hitems, List.filterMap_cons]
    cases item.heading? <;> rfl

/-! ### All that is written stays on one line -/

/-- Whether the names that a scan remembers at a place hold no line break. -/
def Place.OnOneLine : Place → Prop
  | .betweenClasses | .descriptor => True
  | .beforeMethods owner | .betweenMethods owner | .methodName owner | .body owner =>
    '\n' ∉ owner.name.toList
  | .methodType owner name => '\n' ∉ owner.name.toList ∧ '\n' ∉ name.toList

theorem mem_puts {owner : Owner} {items : List Item} {item : Item} (h : item ∈ owner.puts items) :
    item ∈ items := by
  unfold Owner.puts at h
  split at h
  · exact h
  · simp at h

theorem onOneLine_stepBetweenMethods (options : FilterOptions) {owner : Owner}
    (h : '\n' ∉ owner.name.toList) (line : String) :
    (stepBetweenMethods options owner line).1.OnOneLine := by
  unfold stepBetweenMethods stepBetweenClasses
  repeat' split
  all_goals first | exact h | trivial

theorem onOneLine_step (options : FilterOptions) {p : Place} (h : p.OnOneLine) (line : String) :
    (step options p line).1.OnOneLine ∧ ∀ item ∈ (step options p line).2, item.OnOneLine := by
  cases p with
  | betweenClasses =>
    by_cases hstart : isClassStart line <;>
      simp [step, stepBetweenClasses, hstart, Place.OnOneLine]
  | descriptor =>
    refine ⟨newline_notMem_declaredName line, fun item hitem => ?_⟩
    obtain rfl := List.mem_singleton.1 (mem_puts hitem)
    exact newline_notMem_declaredName line
  | beforeMethods owner =>
    by_cases hheads : headsDirectMethods line <;>
      simpa [step, hheads, Place.OnOneLine] using h
  | betweenMethods owner =>
    exact ⟨onOneLine_stepBetweenMethods options h line, by simp [step]⟩
  | methodName owner => exact ⟨⟨h, newline_notMem_getD_field? "name" "'" "'" line⟩, by simp [step]⟩
  | methodType owner name =>
    refine ⟨h.1, fun item hitem => ?_⟩
    obtain rfl := List.mem_singleton.1 (mem_puts hitem)
    exact ⟨h.2, newline_notMem_getD_field? "type" "'" "'" line, h.1⟩
  | body owner =>
    simp only [step, stepBody]
    cases hline : BodyLine.ofLine line with
    | instruction text =>
      refine ⟨h, fun item hitem => ?_⟩
      obtain rfl := List.mem_singleton.1 (mem_puts hitem)
      exact newline_notMem_instruction? (instruction?_of_ofLine_instruction hline)
    | metadata => exact ⟨h, by simp⟩
    | boundary =>
      refine ⟨onOneLine_stepBetweenMethods options h line, fun item hitem => ?_⟩
      rw [stepBetweenMethods_silent, List.append_nil] at hitem
      obtain rfl := List.mem_singleton.1 (mem_puts hitem)
      trivial

theorem onOneLine_finish (options : FilterOptions) {p : Place} (h : p.OnOneLine) :
    ∀ item ∈ finish options p, item.OnOneLine := by
  intro item hitem
  cases p with
  | descriptor =>
    obtain rfl := List.mem_singleton.1 (mem_puts hitem)
    exact newline_notMem_unknownName
  | methodName owner =>
    have hmem := mem_puts hitem
    simp only [List.mem_cons, List.not_mem_nil, or_false] at hmem
    rcases hmem with rfl | rfl
    · exact ⟨newline_notMem_unknownName, newline_notMem_unknownName, h⟩
    · trivial
  | methodType owner name =>
    have hmem := mem_puts hitem
    simp only [List.mem_cons, List.not_mem_nil, or_false] at hmem
    rcases hmem with rfl | rfl
    · exact ⟨h.2, newline_notMem_unknownName, h.1⟩
    · trivial
  | body owner =>
    obtain rfl := List.mem_singleton.1 (mem_puts hitem)
    trivial
  | _ => simp [finish] at hitem

theorem onOneLine_outputFrom (options : FilterOptions) {p : Place} (h : p.OnOneLine)
    (lines : List String) : ∀ item ∈ (scanner options).outputFrom p lines, item.OnOneLine := by
  induction lines generalizing p with
  | nil => exact onOneLine_finish options h
  | cons line rest ih =>
    obtain ⟨hplace, hitems⟩ := onOneLine_step options h line
    intro item hitem
    rcases List.mem_append.1 hitem with hitem | hitem
    · exact hitems item hitem
    · exact ih hplace item hitem

/-! ### Declared and overlooked classes -/

/-- The name of the class whose start stands before the lines. -/
def announcedName (lines : List String) : String :=
  (lines.head?.map declaredName).getD unknownName

/-- The names of the classes that the lines declare, one for each class start. -/
def declaredNames : List String → List String
  | [] => []
  | line :: rest =>
    if isClassStart line then announcedName rest :: declaredNames rest else declaredNames rest

/-- Whether a class start is taken for something else at a place. -/
def Place.overlooks (virtualMethods : Bool) (start : String) : Place → Bool
  | .betweenClasses => false
  | .betweenMethods _ | .body _ => virtualMethods && headsVirtualMethods start
  | .descriptor | .beforeMethods _ | .methodName _ | .methodType _ _ => true

/-- The names of the declared classes whose start is overlooked by a scan that stands at a given
place before the lines. -/
def overlookedFrom (options : FilterOptions) : Place → List String → List String
  | _, [] => []
  | p, line :: rest =>
    let later := overlookedFrom options (step options p line).1 rest
    if isClassStart line && p.overlooks options.virtualMethods line then announcedName rest :: later
    else later

def overlookedNames (options : FilterOptions) (lines : List String) : List String :=
  overlookedFrom options .betweenClasses lines

/-- The class that a scan owes to a class start that it has found. -/
def announced (p : Place) (lines : List String) : List String :=
  if p = .descriptor then [announcedName lines] else []

theorem stepBetweenClasses_eq_descriptor_iff (line : String) :
    (stepBetweenClasses line).1 = .descriptor ↔ isClassStart line = true := by
  unfold stepBetweenClasses
  split <;> simp_all

theorem stepBetweenMethods_eq_descriptor_iff (options : FilterOptions) (owner : Owner)
    (line : String) :
    (stepBetweenMethods options owner line).1 = .descriptor ↔
      isClassStart line = true ∧ (options.virtualMethods && headsVirtualMethods line) = false := by
  unfold stepBetweenMethods
  by_cases hclass : isClassStart line
  · have hblank := allBlank_of_isClassStart hclass
    have hstart := isMethodStart_of_isClassStart hclass
    by_cases hvirtual : (options.virtualMethods && headsVirtualMethods line) = true <;>
      simp [hblank, hstart, hvirtual, hclass, stepBetweenClasses_eq_descriptor_iff]
  · repeat' split
    all_goals simp [hclass, stepBetweenClasses_eq_descriptor_iff]

theorem step_eq_descriptor_iff (options : FilterOptions) (p : Place) (line : String) :
    (step options p line).1 = .descriptor ↔
      isClassStart line = true ∧ p.overlooks options.virtualMethods line = false := by
  cases p with
  | betweenClasses => simp [step, Place.overlooks, stepBetweenClasses_eq_descriptor_iff]
  | betweenMethods owner =>
    simp only [step, Place.overlooks, stepBetweenMethods_eq_descriptor_iff]
  | body owner =>
    simp only [step, stepBody, Place.overlooks]
    cases hline : BodyLine.ofLine line with
    | boundary => exact stepBetweenMethods_eq_descriptor_iff options owner line
    | instruction text =>
      have hclass : isClassStart line ≠ true := fun h => by
        simp [ofLine_of_isClassStart h] at hline
      simp [hclass]
    | metadata =>
      have hclass : isClassStart line ≠ true := fun h => by
        simp [ofLine_of_isClassStart h] at hline
      simp [hclass]
  | beforeMethods owner =>
    by_cases hheads : headsDirectMethods line <;> simp [step, hheads, Place.overlooks]
  | _ => simp [step, Place.overlooks]

@[simp] theorem headings_puts (owner : Owner) (items : List Item) :
    (owner.puts items).filterMap Item.heading? =
      if owner.shown then items.filterMap Item.heading? else [] := by
  unfold Owner.puts
  split <;> rfl

theorem headings_openClass (options : FilterOptions) (name : String) :
    (openClass options name).2.filterMap Item.heading? =
      [name].filter fun name => !options.suppression.hides name := by
  cases h : options.suppression.hides name <;>
    simp [openClass, Owner.puts, h, Item.heading?]

/-- A line opens the class that the class start before it announced, and no other one. -/
theorem headings_step (options : FilterOptions) (p : Place) (line : String) (rest : List String) :
    (step options p line).2.filterMap Item.heading? =
      (announced p (line :: rest)).filter fun name => !options.suppression.hides name := by
  cases p with
  | descriptor => exact headings_openClass options (declaredName line)
  | betweenClasses => simp [step, announced]
  | beforeMethods owner =>
    by_cases hheads : headsDirectMethods line <;> simp [step, hheads, announced]
  | betweenMethods owner => simp [step, announced]
  | methodName owner => simp [step, announced]
  | methodType owner name => simp [step, announced, List.filterMap_cons, Item.heading?]
  | body owner =>
    cases hline : BodyLine.ofLine line <;>
      simp [step, stepBody, hline, announced, List.filterMap_cons, Item.heading?]

theorem headings_finish (options : FilterOptions) (p : Place) :
    (finish options p).filterMap Item.heading? =
      (announced p []).filter fun name => !options.suppression.hides name := by
  cases p with
  | descriptor => exact headings_openClass options unknownName
  | _ => simp [finish, announced, List.filterMap_cons, Item.heading?]

/-- A line declares no class, or one that is announced behind the line or one that is overlooked
there. -/
theorem declaredNames_cons (options : FilterOptions) (p : Place) (line : String)
    (rest : List String) :
    let q := (step options p line).1
    (announced q rest = [] ∧ declaredNames (line :: rest) = declaredNames rest ∧
        overlookedFrom options p (line :: rest) = overlookedFrom options q rest) ∨
      (announced q rest = [announcedName rest] ∧
        declaredNames (line :: rest) = announcedName rest :: declaredNames rest ∧
        overlookedFrom options p (line :: rest) = overlookedFrom options q rest) ∨
      (announced q rest = [] ∧
        declaredNames (line :: rest) = announcedName rest :: declaredNames rest ∧
        overlookedFrom options p (line :: rest) =
          announcedName rest :: overlookedFrom options q rest) := by
  intro q
  have hfound := step_eq_descriptor_iff options p line
  by_cases hstart : isClassStart line
  · cases hoverlooks : p.overlooks options.virtualMethods line with
    | false =>
      have hq : q = .descriptor := hfound.2 ⟨hstart, hoverlooks⟩
      exact .inr (.inl ⟨by simp [announced, hq], by simp [declaredNames, hstart],
        by simp [overlookedFrom, hoverlooks, q]⟩)
    | true =>
      have hq : q ≠ .descriptor := fun hq => by simp [hoverlooks] at hfound; exact hfound hq
      exact .inr (.inr ⟨by simp [announced, hq], by simp [declaredNames, hstart],
        by simp [overlookedFrom, hstart, hoverlooks, q]⟩)
  · have hq : q ≠ .descriptor := fun hq => hstart (hfound.1 hq).1
    exact .inl ⟨by simp [announced, hq], by simp [declaredNames, hstart],
      by simp [overlookedFrom, hstart, q]⟩

/-- The classes that a scan names are among the declared ones, in their order, and those that are
missing are overlooked. -/
theorem headings_outputFrom (options : FilterOptions) (p : Place) (lines : List String) :
    let named := ((scanner options).outputFrom p lines).filterMap Item.heading?
    let shown := fun name => !options.suppression.hides name
    let declared := (announced p lines ++ declaredNames lines).filter shown
    named.Sublist declared ∧
      declared.length = named.length + ((overlookedFrom options p lines).filter shown).length := by
  intro named shown declared
  -- The lengths are carried along because a sublist of the same length is the whole list: nothing
  -- is missing exactly if nothing that is shown was overlooked.
  induction lines generalizing p with
  | nil =>
    have hnamed : named = declared := by
      simp only [named, declared, declaredNames, List.append_nil]
      exact headings_finish options p
    simp [hnamed, overlookedFrom]
  | cons line rest ih =>
    obtain ⟨hsub, hlength⟩ := ih (step options p line).1
    have hnamed : named = (announced p (line :: rest)).filter shown ++
        ((scanner options).outputFrom (step options p line).1 rest).filterMap Item.heading? := by
      rw [← headings_step options p line rest, ← List.filterMap_append]
      rfl
    have hdeclared : declared = (announced p (line :: rest)).filter shown ++
        (declaredNames (line :: rest)).filter shown := List.filter_append ..
    rw [hnamed, hdeclared, List.length_append, List.length_append]
    -- Only in the last case is a declared class lost: its start is read as something else.
    rcases declaredNames_cons options p line rest with
      ⟨hann, hdecl, hover⟩ | ⟨hann, hdecl, hover⟩ | ⟨hann, hdecl, hover⟩
    · rw [hann, List.nil_append, ← hdecl] at hsub hlength
      rw [hover]
      exact ⟨(List.Sublist.refl _).append hsub, by omega⟩
    · rw [hann, List.singleton_append, ← hdecl] at hsub hlength
      rw [hover]
      exact ⟨(List.Sublist.refl _).append hsub, by omega⟩
    · rw [hann, List.nil_append] at hsub hlength
      rw [hdecl, hover]
      have hskip := (List.sublist_cons_self (announcedName rest) (declaredNames rest)).filter shown
      refine ⟨(List.Sublist.refl _).append (hsub.trans hskip), ?_⟩
      by_cases h : shown (announcedName rest) = true
      · rw [List.filter_cons_of_pos h, List.filter_cons_of_pos h]
        simp only [List.length_cons]
        omega
      · rw [List.filter_cons_of_neg h, List.filter_cons_of_neg h]
        omega

/-! ### The classes that a condensed dump names -/

theorem classNames_condense (options : FilterOptions) (lines : List String) :
    classNames (condense options lines) =
      ((scanner options).outputFrom .betweenClasses lines).filterMap Item.heading? := by
  have hplace : Place.betweenClasses.OnOneLine := trivial
  rw [condense, Scanner.scan_eq_outputFrom]
  exact classNames_render (onOneLine_outputFrom options hplace lines)

/-- The class lines of a condensed dump name the declared classes that are shown, each once and in
order, exactly if no class that is shown is overlooked. -/
theorem classNames_condense_eq_iff (options : FilterOptions) (lines : List String) :
    classNames (condense options lines) =
        (declaredNames lines).filter (fun name => !options.suppression.hides name) ↔
      ∀ name ∈ overlookedNames options lines, options.suppression.hides name = true := by
  obtain ⟨hsub, hlength⟩ := headings_outputFrom options .betweenClasses lines
  rw [← classNames_condense] at hsub hlength
  have hempty : (overlookedNames options lines).filter
      (fun name => !options.suppression.hides name) = [] ↔
        ∀ name ∈ overlookedNames options lines, options.suppression.hides name = true := by
    simp [List.filter_eq_nil_iff]
  rw [← hempty, ← List.length_eq_zero_iff]
  constructor
  · intro heq
    rw [heq] at hlength
    simpa [announced, overlookedNames] using hlength
  · intro hnone
    refine hsub.eq_of_length ?_
    rw [hlength]
    simpa [overlookedNames] using hnone

/-- Whether every class start has a line behind it that is no class start itself. -/
def StartsApart : List String → Prop
  | [] => True
  | line :: rest =>
    (isClassStart line = true → ∃ next, rest.head? = some next ∧ isClassStart next = false) ∧
      StartsApart rest

/-- A class without methods hides the one behind it. -/
theorem class_without_methods_overlooks_next :
    let lines := ["Class #0 -", "  Class descriptor  : 'La/First;'",
      "Class #1 -", "  Class descriptor  : 'Lb/Second;'", "  Direct methods    -"]
    StartsApart lines ∧
      (declaredNames lines).filter (fun name => !Suppression.none.hides name) =
        ["a.First", "b.Second"] ∧
      classNames (condense ⟨.none, false⟩ lines) = ["a.First"] := by
  refine ⟨?_, by decide +kernel, by decide +kernel⟩
  have hdescriptor : ∀ line ∈ ["  Class descriptor  : 'La/First;'",
      "  Class descriptor  : 'Lb/Second;'", "  Direct methods    -"],
      isClassStart line = false := by decide
  simp [StartsApart, hdescriptor]

end SnippetLens.Bytecode
