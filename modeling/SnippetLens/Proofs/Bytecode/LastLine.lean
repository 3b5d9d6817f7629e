import SnippetLens.Proofs.Bytecode.Pattern
import SnippetLens.Proofs.Text.LineEnd
import SnippetLens.Bytecode.Scan

/-!
A carriage return at the end of the last line of a bytecode dump.

Every pattern but one overlooks it. The text of an instruction runs to the end of its line, so it
ends in the carriage return; and a line that has nothing behind the address is an instruction only
with it. Hence the carriage return is seen in the condensed listing exactly if the last line stands
in the body of a method that is shown, and is an instruction with it.
-/

namespace SnippetLens.Bytecode

open Listing Text

/-! ### Patterns that overlook it -/

theorem field?_return {keyword opening closing : String} (hkeyword : '\r' ∉ keyword.toList)
    (hsome : keyword.toList ≠ []) (hopening : '\r' ∉ opening.toList)
    (hopens : opening.toList ≠ []) (hclosing : '\r' ∉ closing.toList)
    (hcloses : closing.toList ≠ []) (line : String) :
    field? keyword opening closing (line ++ "\r") = field? keyword opening closing line := by
  have hcolon : '\r' ∉ [':'] := by decide
  have hvalue := Overlooks.longestBefore1 hclosing hcloses
  have hopened := (hvalue.after?_bind hopening hopens).dropBlanks
  have hafter := (hopened.after?_bind hcolon (List.cons_ne_nil _ _)).dropBlanks
  have hfield : Overlooks '\r' id
      (leftmost (fieldHere? keyword.toList opening.toList closing.toList)) :=
    (hafter.after?_bind hkeyword hsome).leftmost
  rw [field?, field?, toList_return, hfield.concat, Option.map_id, id]

theorem classDescriptor?_return (line : String) :
    classDescriptor? (line ++ "\r") = classDescriptor? line :=
  field?_return (by decide) (by decide) (by decide) (by decide) (by decide) (by decide) line

theorem methodName?_return (line : String) : methodName? (line ++ "\r") = methodName? line :=
  congrArg (Option.map String.ofList) <|
    field?_return (by decide) (by decide) (by decide) (by decide) (by decide) (by decide) line

theorem methodType?_return (line : String) : methodType? (line ++ "\r") = methodType? line :=
  congrArg (Option.map String.ofList) <|
    field?_return (by decide) (by decide) (by decide) (by decide) (by decide) (by decide) line

theorem isMethodStart_return (line : String) :
    isMethodStart (line ++ "\r") = isMethodStart line := by
  have hsign : Overlooks '\r' (· ++ ['\r']) (afterBlanks1 fun cs => after? ['#'] cs) :=
    (Overlooks.after? (by decide) (List.cons_ne_nil _ _)).afterBlanks1
  rw [isMethodStart, isMethodStart, toList_return, hsign.isSome_concat]

theorem isClassStart_return (line : String) : isClassStart (line ++ "\r") = isClassStart line := by
  rw [isClassStart, isClassStart, startsWith, startsWith, toList_return]
  exact Overlooks.isPrefixOf_concat (by decide) _

theorem headsDirectMethods_return (line : String) :
    headsDirectMethods (line ++ "\r") = headsDirectMethods line := by
  rw [headsDirectMethods, headsDirectMethods, contains, contains, toList_return]
  exact Overlooks.occursIn_concat (by decide) _

theorem headsVirtualMethods_return (line : String) :
    headsVirtualMethods (line ++ "\r") = headsVirtualMethods line := by
  rw [headsVirtualMethods, headsVirtualMethods, contains, contains, toList_return]
  exact Overlooks.occursIn_concat (by decide) _

theorem allBlank_return (line : String) : allBlank (line ++ "\r") = allBlank line := by
  have hblank : isBlank '\r' = true := by decide
  simp [allBlank, hblank]

theorem isIndented_return (line : String) : isIndented (line ++ "\r") = isIndented line := by
  have hblank : isBlank '\r' = true := by decide
  rw [isIndented, isIndented, toList_return, dropBlanks, dropBlanks]
  by_cases hnil : line.toList.dropWhile isBlank = []
  · have hend : (line.toList ++ ['\r']).dropWhile isBlank = [] := by
      rw [List.dropWhile_append, hnil]
      simp [hblank]
    simp [hnil, hend]
  · obtain ⟨hdrop, htake⟩ := Overlooks.dropWhile_concat_of_ne_nil hnil (r := '\r')
    rw [hdrop, htake]
    cases hrest : line.toList.dropWhile isBlank with
    | nil => exact absurd hrest hnil
    | cons c rest => rfl

theorem isCodeHeader_eq (line : String) :
    isCodeHeader line = ((run? isHexDigit line.toList).bind fun offset =>
      (after? [':'] offset.2).bind fun rest => after? "|[".toList (dropBlanks rest)).isSome := by
  unfold isCodeHeader
  cases run? isHexDigit line.toList with
  | none => rfl
  | some offset =>
    cases h : after? [':'] offset.2 with
    | none => simp [h]
    | some rest => simp [h, isSome_after?]

theorem isCodeHeader_return (line : String) : isCodeHeader (line ++ "\r") = isCodeHeader line := by
  have hmark : Overlooks '\r' (· ++ ['\r']) (after? "|[".toList) :=
    Overlooks.after? (by decide) (by decide)
  have hcolon := hmark.dropBlanks.after?_bind (by decide : '\r' ∉ [':']) (by decide)
  rw [isCodeHeader_eq, isCodeHeader_eq, toList_return, (hcolon.afterRun isHexDigit).isSome_concat]

/-! ### Instructions -/

def decoded? (cs : List Char) : Option (List Char × List Char) :=
  (run? isHexDigit cs).bind fun offset => (after? [':'] offset.2).bind fun words =>
    (run? (· != '|') words).bind fun code => (after? ['|'] code.2).bind fun decoded =>
      (run? isHexDigit decoded).bind fun address =>
        (after? ": ".toList address.2).bind fun rest => some (address.1, rest)

theorem instruction?_eq (line : String) :
    instruction? line = (decoded? line.toList).bind fun d =>
      (restOfLine1 d.2).bind fun text => some (String.ofList (d.1 ++ ": ".toList ++ text)) := by
  simp only [instruction?, decoded?, Option.bind_assoc]
  rfl

theorem overlooks_decoded? :
    Overlooks '\r' (fun d => (d.1, d.2 ++ ['\r'])) decoded? := by
  have hrest : ∀ address : List Char, Overlooks '\r' (fun d => (d.1, d.2 ++ ['\r']))
      fun cs => (after? ": ".toList cs).bind fun rest => some (address, rest) :=
    fun address => (Overlooks.after? (by decide) (by decide)).bind_some fun _ => rfl
  have hdecoded : Overlooks '\r' (fun d => (d.1, d.2 ++ ['\r'])) fun cs =>
      (run? isHexDigit cs).bind fun address =>
        (after? ": ".toList address.2).bind fun rest => some (address.1, rest) :=
    Overlooks.run?_bind isHexDigit fun address => hrest address
  have hbar := hdecoded.after?_bind (by decide : '\r' ∉ ['|']) (by decide)
  have hcode := hbar.afterRun (· != '|')
  have hcolon := hcode.after?_bind (by decide : '\r' ∉ [':']) (by decide)
  exact hcolon.afterRun isHexDigit

/-- An instruction ends in the carriage return that ends its line. -/
theorem instruction?_return {line text : String} (h : instruction? line = some text) :
    instruction? (line ++ "\r") = some (text ++ "\r") := by
  rw [instruction?_eq, Option.bind_eq_some_iff] at h
  obtain ⟨d, hd, h⟩ := h
  obtain ⟨rest, hrest, h⟩ := Option.bind_eq_some_iff.1 h
  have hlonger : restOfLine1 (d.2 ++ ['\r']) = some (rest ++ ['\r']) := by
    unfold restOfLine1 at hrest ⊢
    split at hrest
    · cases hrest
    · cases hrest
      simp_all
  rw [instruction?_eq, toList_return, overlooks_decoded?.concat, hd]
  cases h
  simp [hlonger, String.append_assoc]

theorem isClassStart_eq_false_of_instruction? {line text : String}
    (h : instruction? line = some text) : isClassStart line = false := by
  cases hclass : isClassStart line with
  | false => rfl
  | true =>
    have hboundary := ofLine_of_isClassStart hclass
    simp [BodyLine.ofLine, h] at hboundary

/-- Without an instruction the carriage return makes no difference in the body of a method. -/
theorem ofLine_return {line : String} (h : instruction? (line ++ "\r") = none) :
    BodyLine.ofLine (line ++ "\r") = BodyLine.ofLine line := by
  have hline : instruction? line = none := by
    cases htext : instruction? line with
    | none => rfl
    | some text => simp [instruction?_return htext] at h
  rw [BodyLine.ofLine, BodyLine.ofLine, h, hline, isMethodStart_return, isIndented_return,
    isCodeHeader_return]

/-! ### The last line of a scan -/

variable (options : FilterOptions)

def placeAfter (p : Place) (lines : List String) : Place :=
  lines.foldl (fun p line => (step options p line).1) p

theorem exists_outputFrom_append (p : Place) (front : List String) : ∃ items, ∀ rest,
    (scanner options).outputFrom p (front ++ rest) =
      items ++ (scanner options).outputFrom (placeAfter options p front) rest := by
  induction front generalizing p with
  | nil => exact ⟨[], fun rest => rfl⟩
  | cons line front ih =>
    obtain ⟨items, hitems⟩ := ih (step options p line).1
    refine ⟨(step options p line).2 ++ items, fun rest => ?_⟩
    rw [List.append_assoc]
    exact congrArg ((step options p line).2 ++ ·) (hitems rest)

theorem outputFrom_singleton (p : Place) (line : String) :
    (scanner options).outputFrom p [line] =
      (step options p line).2 ++ finish options (step options p line).1 := rfl

theorem step_return {p : Place} {line : String}
    (h : ∀ owner, p = .body owner → instruction? (line ++ "\r") = none) :
    step options p (line ++ "\r") = step options p line := by
  have hclasses : stepBetweenClasses (line ++ "\r") = stepBetweenClasses line := by
    rw [stepBetweenClasses, stepBetweenClasses, isClassStart_return]
  have hmethods : ∀ owner, stepBetweenMethods options owner (line ++ "\r") =
      stepBetweenMethods options owner line := fun owner => by
    rw [stepBetweenMethods, stepBetweenMethods, allBlank_return, isMethodStart_return,
      headsVirtualMethods_return, hclasses]
  cases p with
  | betweenClasses => exact hclasses
  | descriptor => simp only [step, classDescriptor?_return]
  | beforeMethods owner => simp only [step, headsDirectMethods_return]
  | betweenMethods owner => exact hmethods owner
  | methodName owner => simp only [step, methodName?_return]
  | methodType owner name => simp only [step, methodType?_return]
  | body owner => simp only [step, stepBody, ofLine_return (h owner rfl), hmethods owner]

section Body

variable {owner : Owner} {line : String}

/-- A hidden class puts out nothing, unless the next class is announced. -/
theorem outputFrom_body_of_hidden (hhidden : owner.shown = false)
    (hclass : isClassStart line = false) :
    (scanner options).outputFrom (.body owner) [line] = [] := by
  have hputs : ∀ items, owner.puts items = [] := fun items => by simp [Owner.puts, hhidden]
  rw [outputFrom_singleton, step, stepBody]
  split
  · simp [hputs, finish]
  · simp [hputs, finish]
  · unfold stepBetweenMethods stepBetweenClasses
    split_ifs <;> simp_all [finish]

theorem outputFrom_body_of_instruction (hshown : owner.shown = true) {text : String}
    (h : instruction? line = some text) :
    (scanner options).outputFrom (.body owner) [line] = [.instruction text, .gap] := by
  have hline : BodyLine.ofLine line = .instruction text := by rw [BodyLine.ofLine, h]
  rw [outputFrom_singleton, step, stepBody, hline]
  simp [finish, Owner.puts, hshown]

theorem exists_outputFrom_body (hshown : owner.shown = true) (h : instruction? line = none) :
    ∃ items, (scanner options).outputFrom (.body owner) [line] = .gap :: items := by
  rw [outputFrom_singleton, step, stepBody]
  split
  · rename_i text hline
    simp [instruction?_of_ofLine_instruction hline] at h
  · simp [finish, Owner.puts, hshown]
  · simp [Owner.puts, hshown]

end Body

/-- Whether the last line is an instruction of a method that is shown, once a carriage return ends
it. -/
def ShowsReturn (front : List String) (line : String) : Prop :=
  ∃ owner, placeAfter options .betweenClasses front = .body owner ∧ owner.shown = true ∧
    (instruction? (line ++ "\r")).isSome = true

theorem condense_return_eq_iff (front : List String) (line : String) :
    condense options (front ++ [line ++ "\r"]) = condense options (front ++ [line]) ↔
      ¬ShowsReturn options front line := by
  obtain ⟨items, hitems⟩ := exists_outputFrom_append options .betweenClasses front
  have hcondense : ∀ last, (condense options (front ++ [last])).toList =
      (render items).toList ++ (render ((scanner options).outputFrom
        (placeAfter options .betweenClasses front) [last])).toList := by
    intro last
    rw [condense, Scanner.scan_eq_outputFrom]
    exact (congrArg (fun out => (render out).toList) (hitems [last])).trans (render_append _ _)
  rw [← String.toList_inj, hcondense, hcondense, List.append_cancel_left_eq]
  constructor
  · rintro heq ⟨owner, hplace, hshown, hsome⟩
    obtain ⟨text, htext⟩ := Option.isSome_iff_exists.1 hsome
    rw [hplace, outputFrom_body_of_instruction options hshown htext] at heq
    -- Without the carriage return the method ends at once, or its last instruction is shorter.
    cases hline : instruction? line with
    | none =>
      obtain ⟨others, hothers⟩ := exists_outputFrom_body options hshown hline
      rw [hothers] at heq
      simp [render, Item.render] at heq
    | some plain =>
      rw [outputFrom_body_of_instruction options hshown hline] at heq
      obtain rfl : plain ++ "\r" = text := by
        rw [instruction?_return hline] at htext
        exact Option.some.inj htext
      have hlength := congrArg List.length heq
      simp [render, Item.render] at hlength
  · intro hnot
    -- An instruction can only be one of a hidden method, which has no output with or without it.
    by_cases hsome : ∃ owner text, placeAfter options .betweenClasses front = .body owner ∧
        instruction? (line ++ "\r") = some text
    · obtain ⟨owner, text, hplace, htext⟩ := hsome
      have hhidden : owner.shown = false := by
        by_contra hshown
        exact hnot ⟨owner, hplace, by simpa using hshown, by rw [htext, Option.isSome_some]⟩
      have hreturn := isClassStart_eq_false_of_instruction? htext
      have hline : isClassStart line = false := by rw [← isClassStart_return, hreturn]
      rw [hplace, outputFrom_body_of_hidden options hhidden hreturn,
        outputFrom_body_of_hidden options hhidden hline]
    · have hnone : ∀ owner, placeAfter options .betweenClasses front = .body owner →
          instruction? (line ++ "\r") = none :=
        fun owner hplace => Option.eq_none_iff_forall_ne_some.2 fun text htext =>
          hsome ⟨owner, text, hplace, htext⟩
      rw [outputFrom_singleton, outputFrom_singleton, step_return options hnone]

end SnippetLens.Bytecode
