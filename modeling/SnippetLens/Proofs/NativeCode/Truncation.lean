import SnippetLens.Proofs.Build.Trace
import SnippetLens.Proofs.NativeCode.Noise
import SnippetLens.Proofs.Tool.Capture

/-!
A native code dump that breaks off.

A scan puts its items out line by line and nothing at the end. So a dump that breaks off is condensed
to the beginning of what the whole dump is condensed to, in whichever region the scan then stands.

The tool of the last stage can be stopped before it has said everything. What was written down of it
are whole lines, and the note behind them says nothing to the scan; so its pane shows the beginning
of what it would have shown. A tool that ends by itself may do so in the midst of a line. Then the
part of the line is written down as well, and what it is condensed to stands behind that beginning.
-/

namespace SnippetLens.NativeCode

open Listing Text Tool Build

theorem prefix_condense_append (options : FilterOptions) (front back : List String) :
    (condense options front).toList <+: (condense options (front ++ back)).toList := by
  rw [toList_condense_append]
  exact List.prefix_append _ _

/-! ### The note behind the lines of a tool -/

theorem isSignificant_of_bracket {cs : List Char} (h : 'C' ∉ cs) :
    isSignificant (String.ofList ('[' :: cs)) = false := by
  have htext : (String.ofList ('[' :: cs)).toList = '[' :: cs := String.toList_ofList
  have hstart : ∀ p : Char → Bool, p '[' = false →
      ¬∃ c, (String.ofList ('[' :: cs)).toList.head? = some c ∧ p c = true := by
    rintro p hp ⟨c, hc, hpc⟩
    obtain rfl : '[' = c := by simpa using hc
    simp [hp] at hpc
  rw [isSignificant_eq_false_iff]
  refine ⟨?_, ?_, ?_, ?_, ?_⟩
  · rw [Option.eq_none_iff_forall_ne_some]
    exact fun name hname => hstart isDigit (by decide) (head_of_classHeader? hname)
  · rw [Option.eq_none_iff_forall_ne_some]
    exact fun signature h => hstart isBlank (by decide) (head_of_methodHeader? h)
  · rw [Option.eq_none_iff_forall_ne_some]
    exact fun i hi => hstart isBlank (by decide) (head_of_instruction? hi)
  · rw [headsCode, contains, htext, Bool.eq_false_iff, Ne, occursIn_iff]
    intro hinfix
    have hmark : 'C' ∈ "CODE: ".toList := by decide
    have hmem : 'C' ∈ '[' :: cs := hinfix.subset hmark
    simp [h] at hmem
  · have hblank : isBlank '[' = false := by decide
    rw [opensListing, htext, dropBlanks, List.dropWhile_cons, hblank]
    rfl

theorem isSignificant_of_note {text : String} (hfeed : '\n' ∉ text.toList)
    (hcode : 'C' ∉ text.toList) :
    ∀ line ∈ Text.lines ("[" ++ text ++ "]\n"), isSignificant line = false := by
  have hbytes : "[" ++ text ++ "]\n" = String.ofList (ended '\n' ['[' :: text.toList ++ [']']]) := by
    apply String.toList_injective
    simp [ended]
  have hline : ∀ line ∈ ['[' :: text.toList ++ [']']], '\n' ∉ line := by simp [hfeed]
  rw [hbytes, lines_ended hline, List.map_singleton]
  intro line hmem
  have hreturn : dropEnd '\r' ('[' :: text.toList ++ [']']) = '[' :: text.toList ++ [']'] :=
    dropEnd_eq_self_iff.2 (by rw [List.getLast?_concat]; decide)
  rw [List.mem_singleton.1 hmem, hreturn]
  exact isSignificant_of_bracket (by simp [hcode])

theorem append_enclosed (s opening text closing : String) :
    s ++ opening ++ text ++ closing = s ++ (opening ++ text ++ closing) := by
  simp only [String.append_assoc]

/-- A tool that was stopped has a note behind its lines, in brackets. -/
theorem exists_note (c : Capture) (ending : Ending) : ∃ note,
    (c.result ending).output = c.text ++ note ∧
      ∀ line ∈ Text.lines note, isSignificant line = false := by
  have hnothing : ∀ line ∈ Text.lines "", isSignificant line = false := by decide
  cases ending with
  | exited code => exact ⟨"", String.append_empty.symm, hnothing⟩
  | signalled => exact ⟨"", String.append_empty.symm, hnothing⟩
  | expired limit =>
    refine ⟨"[" ++ ("timed out after " ++ toString (limit / 1000) ++ "s") ++ "]\n", ?_, ?_⟩
    · refine (append_enclosed _ _ _ _).trans (congrArg _ (String.toList_injective ?_))
      simp
    · have hdigit : ∀ c ∈ (toString (limit / 1000)).toList, c.isDigit = true := by
        intro c hc
        rw [Nat.toString_eq_repr, Nat.toList_repr] at hc
        exact Nat.isDigit_of_mem_toDigits (by decide) (by decide) hc
      have hother : ∀ other : Char, other.isDigit = false →
          other ∉ (toString (limit / 1000)).toList := by
        intro other h hmem
        rw [hdigit other hmem] at h
        cases h
      apply isSignificant_of_note
      · simpa using hother '\n' (by decide)
      · simpa using hother 'C' (by decide)
  | broken cause =>
    refine ⟨"[" ++ cause.message ++ "]\n", append_enclosed _ _ _ _, isSignificant_of_note ?_ ?_⟩
    · cases cause <;> decide
    · cases cause <;> decide

theorem significant_lines_result (c : Capture) (ending : Ending) :
    (Text.lines (c.result ending).output).filter isSignificant =
      (Text.lines c.text).filter isSignificant := by
  obtain ⟨note, houtput, hnote⟩ := exists_note c ending
  have hnone : (Text.lines note).filter isSignificant = [] := by simpa using hnote
  rw [houtput, lines_append (Capture.eq_of_getLast?_text c), List.filter_append, hnone,
    List.append_nil]

/-! ### The pane of the native code -/

theorem answer_listNativeCode (plan : Plan) (command : Command) (rest : List Stage)
    (files left : Files.FileTree) (c : Channel) (result : ToolResult) :
    (plan.answer ⟨.waiting .listNativeCode command rest, files, c⟩ result left).channel =
      c.send (.pane .nativeCode
        (condense plan.options.filters (Text.lines result.output))) := by
  rw [Plan.answer_waiting]
  rfl

/-- Streams that end write down nothing if no line was begun on them. -/
theorem ofArrivals_append_ended {arrivals ends : List Arrival}
    (hends : ∀ arrival ∈ ends, ∃ stream, arrival = .ended stream)
    (hnone : ∀ stream, .ended stream ∈ ends → (Capture.ofArrivals arrivals).begun stream = []) :
    Capture.ofArrivals (arrivals ++ ends) = Capture.ofArrivals arrivals := by
  rw [Capture.ofArrivals, List.foldl_append]
  show ends.foldl Capture.receive (Capture.ofArrivals arrivals) = _
  induction ends with
  | nil => rfl
  | cons arrival ends ih =>
    obtain ⟨⟨stream, rfl⟩, hrest⟩ := List.forall_mem_cons.1 hends
    have hbegun := hnone stream List.mem_cons_self
    have hsame : (Capture.ofArrivals arrivals).receive (.ended stream) =
        Capture.ofArrivals arrivals := by
      simp only [Capture.receive, Capture.writeDown, hbegun]
    rw [List.foldl_cons, hsame]
    exact ih hrest fun stream hmem => hnone stream (List.mem_cons_of_mem _ hmem)

theorem condense_lines_result (options : FilterOptions) (c : Capture) (ending : Ending) :
    condense options (Text.lines (c.result ending).output) =
      condense options (Text.lines c.text) := by
  rw [← condense_filter_isSignificant, significant_lines_result, condense_filter_isSignificant]

/-- A dump that breaks off between two lines is condensed to a beginning of what the whole dump is
condensed to. So the pane of a tool that was stopped, or that ended, begins with what the whole
lines come to, as the pane of the whole dump does; and there is nothing behind that, unless the tool
ended in the midst of a line. -/
theorem prefix_shown_of_cut_off :
    (∀ (options : FilterOptions) (front back : List String),
      (condense options front).toList <+: (condense options (front ++ back)).toList) ∧
    ∀ (plan : Plan) (arrivals ends more : List Arrival) (cut whole : Ending),
      (∀ arrival ∈ ends, ∃ stream, arrival = .ended stream) →
      let shown := condense plan.options.filters (Text.lines (Capture.ofArrivals arrivals).text)
      ∃ begun all : String, shown.toList <+: all.toList ∧
        ((∀ stream, .ended stream ∈ ends → (Capture.ofArrivals arrivals).begun stream = []) →
          begun = "") ∧
        ∀ (command : Command) (rest : List Stage) (files left : Files.FileTree) (c : Channel),
          (plan.answer ⟨.waiting .listNativeCode command rest, files, c⟩
              ((Capture.ofArrivals (arrivals ++ ends)).result cut) left).channel =
            c.send (.pane .nativeCode (shown ++ begun)) ∧
          (plan.answer ⟨.waiting .listNativeCode command rest, files, c⟩
              ((Capture.ofArrivals (arrivals ++ more)).result whole) left).channel =
            c.send (.pane .nativeCode all) := by
  refine ⟨prefix_condense_append, fun plan arrivals ends more cut whole hends => ?_⟩
  intro shown
  have hprefix (later : List Arrival) : shown.toList <+:
      (condense plan.options.filters
        (Text.lines (Capture.ofArrivals (arrivals ++ later)).text)).toList := by
    obtain ⟨lines, hlines⟩ := Capture.exists_lines_ofArrivals_append arrivals later
    rw [hlines]
    exact prefix_condense_append _ _ lines
  obtain ⟨begun, hbegun⟩ := hprefix ends
  have hpane : shown ++ String.ofList begun =
      condense plan.options.filters (Text.lines (Capture.ofArrivals (arrivals ++ ends)).text) :=
    String.toList_injective (by simpa using hbegun)
  refine ⟨String.ofList begun, _, hprefix more, fun hnone => ?_, fun command rest files left c => ?_⟩
  · rw [ofArrivals_append_ended hends hnone] at hbegun
    rw [List.append_right_eq_self.1 hbegun, String.ofList_nil]
  · rw [answer_listNativeCode, answer_listNativeCode, condense_lines_result, condense_lines_result,
      hpane]
    exact ⟨rfl, rfl⟩

/-! ### A small dump that breaks off -/

def smallFront : String :=
  "OatDexFile:\n" ++
  "0: LMain; (offset=0x590) (type_idx=1)\n" ++
  "  0: void Main.f() (dex_method_idx=0)\n" ++
  "    CODE: (code_offset=0x1030 size=8)\n"

def smallSaid (text : String) : List Arrival :=
  [.bytes .output (Text.Utf8.encode text)]

def bothEnded : List Arrival := [.ended .output, .ended .errors]

def smallAnswer (arrivals : List Arrival) (ending : Ending) : Channel :=
  (smallPlan.answer ⟨.waiting .listNativeCode (listNativeCodeCommand smallPlan.locations "/data") [],
    smallFiles, {}⟩ ((Capture.ofArrivals arrivals).result ending) smallFiles).channel

/-- The tool dies between two lines. -/
theorem prefix_shown_of_smallFront :
    let arrivals := smallSaid (smallFront ++ "      0x00001030: 52800240\tmov w0, #0x12\n")
    let more := smallSaid "      0x00001034: d65f03c0\tret\n" ++ bothEnded
    let shown := "class Main\n    void Main.f()\n        0x00001030: mov w0, #0x12\n"
    ∃ all : String, shown.toList <+: all.toList ∧
      smallAnswer (arrivals ++ bothEnded) .signalled =
        ({} : Channel).send (.pane .nativeCode shown) ∧
      smallAnswer (arrivals ++ more) (.exited 0) =
        ({} : Channel).send (.pane .nativeCode all) := by
  intro arrivals more shown
  have hshown : condense smallPlan.options.filters
      (Text.lines (Capture.ofArrivals arrivals).text) = shown := by decide +kernel
  have hwhole : ∀ stream, (Capture.ofArrivals arrivals).begun stream = [] := by
    intro stream
    cases stream <;> decide +kernel
  obtain ⟨begun, all, hprefix, hnone, hpanes⟩ := prefix_shown_of_cut_off.2 smallPlan arrivals
    bothEnded more .signalled (.exited 0) (by simp [bothEnded])
  obtain rfl := hnone fun stream _ => hwhole stream
  obtain ⟨hcut, hall⟩ := hpanes (listNativeCodeCommand smallPlan.locations "/data") [] smallFiles
    smallFiles {}
  rw [hshown] at hprefix
  rw [hshown, String.append_empty] at hcut
  exact ⟨all, hprefix, hcut, hall⟩

/-- The tool dies in the midst of a line. What it has said of the line is shown as if it was all, and
the whole dump has another line there. -/
theorem shown_of_half_a_line :
    let arrivals := smallSaid (smallFront ++ "      0x00001030: 52800240\tmov w0, #0x12")
    let more := smallSaid "34\n" ++ bothEnded
    ∃ shown all : String, ¬shown.toList <+: all.toList ∧
      smallAnswer (arrivals ++ bothEnded) .signalled =
        ({} : Channel).send (.pane .nativeCode shown) ∧
      smallAnswer (arrivals ++ more) (.exited 0) =
        ({} : Channel).send (.pane .nativeCode all) := by
  intro arrivals more
  refine ⟨"class Main\n    void Main.f()\n        0x00001030: mov w0, #0x12\n",
    "class Main\n    void Main.f()\n        0x00001030: mov w0, #0x1234\n", by decide +kernel, ?_, ?_⟩
  · rw [smallAnswer, answer_listNativeCode, condense_lines_result]
    decide +kernel
  · rw [smallAnswer, answer_listNativeCode, condense_lines_result]
    decide +kernel

end SnippetLens.NativeCode
