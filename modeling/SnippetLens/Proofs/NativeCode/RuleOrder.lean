import SnippetLens.Proofs.NativeCode.Projection

/-!
The order of the rules for a native code dump.

A line that one of the three patterns recognises is recognised by no other, so at most one rule
takes it, whatever the region. A table of such rules gives the same answer in every order, and a
scan asks its table about one line at a time; so a dump is condensed alike in every order of the
rules.
-/

namespace SnippetLens.NativeCode

open Listing

/-! ### Lines that a rule takes -/

theorem count_patterns_le_one (line : String) :
    [(classHeader? line).isSome, (methodHeader? line).isSome,
      (instruction? line).isSome].count true ≤ 1 := by
  cases hclass : classHeader? line with
  | some name =>
    simp [methodHeader?_of_classHeader? hclass, instruction?_of_classHeader? hclass]
  | none =>
    cases hmethod : methodHeader? line with
    | some signature => simp [instruction?_of_methodHeader? hmethod]
    | none => cases instruction? line <;> simp

def Rule.answer (options : FilterOptions) (region : Region) (line : String) (rule : Rule) :
    Option (Region × List Item) :=
  if rule.inForce region then rule.apply options region line else none

section Answers

variable {options : FilterOptions} {region : Region} {line : String}

theorem answer_instructionRule (h : instruction? line = none) :
    instructionRule.answer options region line = none := by
  simp [Rule.answer, instructionRule, h]

theorem answer_methodRule (h : methodHeader? line = none) :
    methodRule.answer options region line = none := by
  simp [Rule.answer, methodRule, h]

theorem answer_classRule (h : classHeader? line = none) :
    classRule.answer options region line = none := by
  simp [Rule.answer, classRule, h]

end Answers

theorem pairwise_rules (options : FilterOptions) (region : Region) (line : String) :
    rules.Pairwise fun a b =>
      a.answer options region line = none ∨ b.answer options region line = none := by
  have hinstruction : instructionRule.answer options region line = none ∨
      methodRule.answer options region line = none ∧
        classRule.answer options region line = none := by
    cases h : instruction? line with
    | none => exact .inl (answer_instructionRule h)
    | some i =>
      refine .inr ⟨answer_methodRule ?_, answer_classRule ?_⟩
      · cases hmethod : methodHeader? line with
        | none => rfl
        | some signature => simp [instruction?_of_methodHeader? hmethod] at h
      · cases hclass : classHeader? line with
        | none => rfl
        | some name => simp [instruction?_of_classHeader? hclass] at h
  have hmethod : methodRule.answer options region line = none ∨
      classRule.answer options region line = none := by
    cases h : classHeader? line with
    | none => exact .inr (answer_classRule h)
    | some name => exact .inl (answer_methodRule (methodHeader?_of_classHeader? h))
  simp only [rules, List.pairwise_cons, List.mem_cons, List.not_mem_nil, or_false,
    List.Pairwise.nil, and_true, forall_eq_or_imp, forall_eq, IsEmpty.forall_iff, implies_true]
  tauto

/-! ### Tables in another order -/

/-- Where at most one entry has an answer, the first answer is the same in every order. -/
theorem findSome?_eq_of_perm {α β : Type} {f : α → Option β} {table table' : List α}
    (hperm : table.Perm table') (hone : table.Pairwise fun a b => f a = none ∨ f b = none) :
    table.findSome? f = table'.findSome? f := by
  induction hperm with
  | nil => rfl
  | cons a _ ih => rw [List.findSome?_cons, List.findSome?_cons, ih (List.pairwise_cons.1 hone).2]
  | swap a b table =>
    have hfirst : f b = none ∨ f a = none := (List.pairwise_cons.1 hone).1 a (by simp)
    rcases hfirst with h | h <;> simp [List.findSome?_cons, h]
  | trans hperm _ ih ih' => exact (ih hone).trans (ih' (hperm.pairwise hone Or.symm))

variable {table : List Rule}

theorem dispatch_eq_of_perm (h : table.Perm rules) (options : FilterOptions) (region : Region)
    (line : String) : dispatch table options region line = dispatch rules options region line :=
  (findSome?_eq_of_perm h.symm (pairwise_rules options region line)).symm

theorem step_eq_of_perm (h : table.Perm rules) (options : FilterOptions) (region : Region)
    (line : String) : step table options region line = step rules options region line := by
  cases region <;> simp only [step, dispatch_eq_of_perm h]

theorem scannerOf_eq_of_perm (h : table.Perm rules) (options : FilterOptions) :
    scannerOf table options = scanner options := by
  have hstep : step table options = step rules options :=
    funext fun region => funext fun line => step_eq_of_perm h options region line
  rw [scanner, scannerOf, scannerOf, hstep]

/-- At most one pattern recognises a line, so a dump is condensed alike in every order of the
rules. -/
theorem condense_eq_of_rules_perm :
    (∀ line : String, [(classHeader? line).isSome, (methodHeader? line).isSome,
      (instruction? line).isSome].count true ≤ 1) ∧
    ∀ table : List Rule, table.Perm rules → ∀ (options : FilterOptions) (lines : List String),
      render ((scannerOf table options).scan lines) = condense options lines := by
  refine ⟨count_patterns_le_one, fun table h options lines => ?_⟩
  rw [scannerOf_eq_of_perm h, condense]

theorem condense_twoClasses_reversed_rules :
    [classRule, methodRule, instructionRule].Perm rules ∧
    render ((scannerOf [classRule, methodRule, instructionRule] ⟨.standard, false⟩).scan
        twoClasses) = condense ⟨.standard, false⟩ twoClasses ∧
    condense ⟨.standard, false⟩ twoClasses =
      "class a.B\n    int g()\n        0x00001030: mov w0, w1\n" := by
  have h : [classRule, methodRule, instructionRule].Perm rules := rules.reverse_perm
  exact ⟨h, condense_eq_of_rules_perm.2 _ h _ _, by decide +kernel⟩

end SnippetLens.NativeCode
