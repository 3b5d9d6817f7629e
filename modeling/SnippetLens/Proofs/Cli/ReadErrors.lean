import SnippetLens.Cli.Run
import SnippetLens.Proofs.Listing.Stream

/-!
A stream that cannot be read to its end has no condensed listing.

A failed read ends the lines like the end of the stream, and nothing is said about it before the
listing is finished. It is not overlooked, because every reading goes on until there is no line:
whatever the dump breaks off in, the failure is there when it is asked for.
-/

namespace SnippetLens.Cli

open Listing Files

variable (kind : DumpKind) (options : FilterOptions)

theorem condenseStream_of_sound {stream : ByteStream} (h : stream.Sound) :
    condenseStream kind options stream = .ok (kind.condenseSource options stream).1 := by
  have hafter := h.of_ended (ended_condenseSource kind options stream)
  rw [condenseStream]
  simp only [hafter.1]

theorem exists_condenseStream_of_fails {stream : ByteStream} {cause : Failure}
    {rest : List Reading} (h : stream.Fails (.failed cause :: rest)) :
    ∃ noticed, .failed noticed ∈ .failed cause :: rest ∧
      condenseStream kind options stream = .error (.io noticed) := by
  obtain ⟨-, noticed, hnoticed, hfailure⟩ :=
    h.hasFailed_of_ended (ended_condenseSource kind options stream)
  refine ⟨noticed, hnoticed, ?_⟩
  rw [condenseStream]
  simp only [hfailure]

/-- A stream that delivers some chunks, of any bytes, and then fails is answered with a failure that
a read told, whatever the reads behind that answer; a stream none of whose reads fail is answered
with its listing. -/
theorem condenseStream_reports_failure (reads : List Reading) :
    (∀ {served : List (List UInt8)} {cause : Failure} {rest : List Reading}, [] ∉ served →
        reads = served.map .bytes ++ .failed cause :: rest →
          ∃ noticed, .failed noticed ∈ .failed cause :: rest ∧
            condenseStream kind options { reads } = .error (.io noticed) ∧
            (CommandError.io noticed).exitCode = 74) ∧
      ((∀ cause, .failed cause ∉ reads) →
        condenseStream kind options { reads } =
          .ok (kind.condenseSource options ({ reads } : ByteStream)).1) := by
  refine ⟨fun {served cause rest} hserved hreads => ?_, fun hsound => ?_⟩
  · have hfails : ({ reads } : ByteStream).Fails (.failed cause :: rest) :=
      .inl ⟨served, hserved, hreads⟩
    obtain ⟨noticed, hnoticed, hstream⟩ := exists_condenseStream_of_fails kind options hfails
    exact ⟨noticed, hnoticed, hstream, rfl⟩
  · exact condenseStream_of_sound kind options ⟨rfl, hsound⟩

def classStart : List UInt8 := [67, 108, 97, 115, 115, 32, 35, 48, 10]

/-- Reading fails where the class is named, and goes on behind it. -/
theorem condenseStream_classStart :
    condenseStream .bytecode {}
        { reads := [.bytes classStart, .failed .isDirectory, .bytes classStart] } =
          .error (.io .isDirectory) ∧
      condenseStream .bytecode {} { reads := [.bytes classStart] } =
        .ok (DumpKind.bytecode.condenseSource {}
          ({ reads := [.bytes classStart] } : ByteStream)).1 := by
  have hserved : [] ∉ [classStart] := by decide
  have hsound : ∀ cause, .failed cause ∉ [Reading.bytes classStart] := by simp
  obtain ⟨noticed, hnoticed, hstream, -⟩ :=
    (condenseStream_reports_failure .bytecode {}
      [.bytes classStart, .failed .isDirectory, .bytes classStart]).1 hserved rfl
  obtain rfl : noticed = .isDirectory := by simpa using hnoticed
  exact ⟨hstream, (condenseStream_reports_failure .bytecode {} _).2 hsound⟩

end SnippetLens.Cli
