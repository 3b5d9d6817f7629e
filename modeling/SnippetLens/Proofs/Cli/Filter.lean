import SnippetLens.Cli.Run
import SnippetLens.Proofs.Build.Trace
import SnippetLens.Proofs.Bytecode.LastLine
import SnippetLens.Proofs.Cli.ReadErrors
import SnippetLens.Proofs.NativeCode.LastLine
import SnippetLens.Proofs.Tool.Capture

/-!
Condensing a dump that is read from a stream, and condensing one that is at hand as a text.

Both read the same lines, except for a carriage return at the very end of the dump, which the lines
of a stream drop. What the two make of a dump differs exactly if the carriage return ends an
instruction that is shown. A pane of a build shows what the command prints: the lines of what a tool
says were written down before they are read again, and each of them was ended.
-/

namespace SnippetLens.Cli

open Listing Text Tool Build

theorem condenseStream_of_delivers (kind : DumpKind) (options : FilterOptions)
    {reads : List Reading} {bytes : List UInt8} (h : Delivers reads bytes) :
    condenseStream kind options { reads } =
      .ok (kind.condenseLines options (byteLines bytes)) := by
  have hstream : Hands ({ reads } : ByteStream) (byteLines bytes) :=
    ByteStream.hands_of_delivers (s := { reads }) h
  have hsound : ({ reads } : ByteStream).Sound := ⟨rfl, h.failed_notMem⟩
  rw [condenseStream_of_sound kind options hsound, condenseSource_of_hands kind options hstream]

/-! ### A text from a stream -/

/-- Whether a dump ends in a carriage return that its condensed listing shows. -/
def ShowsReturn (kind : DumpKind) (options : FilterOptions) (dump : String) : Prop :=
  dump.toList.getLast? = some '\r' ∧ ∃ front line, Text.lines dump = front ++ [line ++ "\r"] ∧
    match kind with
    | .bytecode => Bytecode.ShowsReturn options front line
    | .nativeCode => NativeCode.ShowsReturn options front line

theorem condense_endLastLine_eq_iff (kind : DumpKind) (options : FilterOptions) (dump : String) :
    kind.condense options (endLastLine dump) = kind.condense options dump ↔
      ¬ShowsReturn kind options dump := by
  rw [DumpKind.condense, DumpKind.condense]
  by_cases hreturn : dump.toList.getLast? = some '\r'
  · obtain ⟨front, line, hlines, hended⟩ := exists_lines_return hreturn
    have hshows : ShowsReturn kind options dump ↔
        match kind with
        | .bytecode => Bytecode.ShowsReturn options front line
        | .nativeCode => NativeCode.ShowsReturn options front line := by
      refine ⟨?_, fun h => ⟨hreturn, front, line, hlines, h⟩⟩
      rintro ⟨-, front', line', hlines', h⟩
      rw [hlines, ← List.concat_eq_append, ← List.concat_eq_append, List.concat_inj,
        String.append_left_inj] at hlines'
      obtain ⟨rfl, rfl⟩ := hlines'
      exact h
    rw [hshows, hlines, hended, eq_comm]
    cases kind with
    | bytecode => exact Bytecode.condense_return_eq_iff options front line
    | nativeCode => exact NativeCode.condense_return_eq_iff options front line
  · rw [(lines_endLastLine_eq_iff dump).2 hreturn]
    exact iff_of_true rfl fun h => hreturn h.1

/-- A stream is condensed like its text with the last line ended, so it is condensed like its text
unless that shows a carriage return at its end. -/
theorem condenseStream_encode (kind : DumpKind) (options : FilterOptions) {reads : List Reading}
    {dump : String} (h : Delivers reads (Utf8.encode dump)) :
    condenseStream kind options { reads } = .ok (kind.condense options (endLastLine dump)) ∧
      (condenseStream kind options { reads } = .ok (kind.condense options dump) ↔
        ¬ShowsReturn kind options dump) := by
  have hended : condenseStream kind options { reads } =
      .ok (kind.condense options (endLastLine dump)) := by
    rw [condenseStream_of_delivers kind options h, byteLines_encode]
    rfl
  refine ⟨hended, ?_⟩
  rw [hended, Except.ok.injEq, condense_endLastLine_eq_iff]

/-- The carriage return and the line feed of a line may be read apart. -/
theorem condenseStream_encode_apart :
    Delivers [.bytes [97, 13], .bytes [10, 98]] (Utf8.encode "a\r\nb") ∧
      ¬ShowsReturn .bytecode {} "a\r\nb" ∧
      condenseStream .bytecode {} { reads := [.bytes [97, 13], .bytes [10, 98]] } =
        .ok (DumpKind.bytecode.condense {} (endLastLine "a\r\nb")) ∧
      (condenseStream .bytecode {} { reads := [.bytes [97, 13], .bytes [10, 98]] } =
          .ok (DumpKind.bytecode.condense {} "a\r\nb") ↔
        ¬ShowsReturn .bytecode {} "a\r\nb") := by
  have hencode : Utf8.encode "a\r\nb" = [97, 13] ++ ([10, 98] ++ []) :=
    Utf8.encode_ofList "a\r\nb".toList
  have hreads : Delivers [.bytes [97, 13], .bytes [10, 98]] (Utf8.encode "a\r\nb") := by
    rw [hencode]
    exact .some (by decide) (.some (by decide) .nothing)
  have hlast : ¬ShowsReturn .bytecode {} "a\r\nb" := by
    rintro ⟨hlast, -⟩
    exact absurd hlast (by decide)
  exact ⟨hreads, hlast, condenseStream_encode .bytecode {} hreads⟩

/-- A dump whose last line is an instruction, with a carriage return and no line feed behind it. -/
def openInstruction : String :=
  "OatDexFile:\n0: LMain; (offset=0x590) (type_idx=2)\n  0: void Main.f() (dex_method_idx=1)\n" ++
    "    CODE: (size=4)\n      0x1020: d65f03c0\tret\r"

/-- A stream of it is condensed without the carriage return. -/
theorem condenseStream_openInstruction_ne :
    condenseStream .nativeCode {} (.ofBytes (Utf8.encode openInstruction)) =
        .ok "class Main\n    void Main.f()\n        0x1020: ret\n" ∧
      DumpKind.nativeCode.condense {} openInstruction =
        "class Main\n    void Main.f()\n        0x1020: ret\r\n" := by
  refine ⟨?_, by decide +kernel⟩
  have hended : DumpKind.nativeCode.condense {} (endLastLine openInstruction) =
      "class Main\n    void Main.f()\n        0x1020: ret\n" := by decide +kernel
  refine (condenseStream_of_delivers .nativeCode {} (delivers_ofBytes _)).trans ?_
  rw [byteLines_encode, ← hended]
  rfl

/-! ### What a tool says -/

/-- A pane shows what the command prints, if no line of what the tool said ends in two carriage
returns. -/
theorem deliver_condensed_eq {bytes : List UInt8}
    (hline : ¬[carriageReturn, carriageReturn, lineFeed] <:+: bytes)
    (hlast : ¬[carriageReturn, carriageReturn] <:+ bytes) {arrivals : List Arrival}
    (hends : ∀ stream, Ends stream arrivals) (houtput : heard .output arrivals = bytes)
    (herrors : heard .errors arrivals = []) {reads : List Reading} (hreads : Delivers reads bytes)
    {ending : Ending} (hending : (∃ code, ending = .exited code) ∨ ending = .signalled)
    (plan : Plan) (kind : DumpKind) :
    ∃ report, condenseStream kind plan.options.filters { reads } = .ok report ∧
      plan.deliver ((Capture.ofArrivals arrivals).result ending).output (.condensed kind) =
        some report := by
  refine ⟨_, condenseStream_of_delivers kind _ hreads, ?_⟩
  have hresult : ((Capture.ofArrivals arrivals).result ending).output =
      (Capture.ofArrivals arrivals).text := by
    rcases hending with ⟨code, rfl⟩ | rfl <;> rfl
  have htext : (Capture.ofArrivals arrivals).text =
      String.join ((byteLines bytes).map (· ++ "\n")) := by
    rw [Capture.text_ofArrivals_of_silent hends herrors, houtput]
  rw [hresult, htext, Plan.deliver, DumpKind.condense, lines_join_byteLines hline hlast]

/-- A line that ends in a carriage return, and one that is not ended and is no UTF-8. -/
theorem deliver_condensed_eq_invalid :
    let bytes : List UInt8 := [79, 13, 10, 255, 13]
    let arrivals : List Arrival := [.bytes .output [79, 13], .ended .errors,
      .bytes .output [10, 255, 13], .ended .output]
    ¬[carriageReturn, carriageReturn, lineFeed] <:+: bytes ∧
      ¬[carriageReturn, carriageReturn] <:+ bytes ∧ (∀ stream, Ends stream arrivals) ∧
      heard .output arrivals = bytes ∧ heard .errors arrivals = [] ∧
      ∃ report, condenseStream .nativeCode smallPlan.options.filters (.ofBytes bytes) = .ok report ∧
        smallPlan.deliver ((Capture.ofArrivals arrivals).result (.exited 0)).output
          (.condensed .nativeCode) = some report := by
  intro bytes arrivals
  have hline : ¬[carriageReturn, carriageReturn, lineFeed] <:+: bytes := by decide
  have hlast : ¬[carriageReturn, carriageReturn] <:+ bytes := by decide
  have hends : ∀ stream, Ends stream arrivals := by rintro (_ | _) <;> rfl
  exact ⟨hline, hlast, hends, rfl, rfl,
    deliver_condensed_eq hline hlast hends rfl rfl (delivers_ofBytes bytes) (.inl ⟨0, rfl⟩)
      smallPlan .nativeCode⟩

end SnippetLens.Cli
