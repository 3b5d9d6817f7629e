import SnippetLens.Build.Command
import SnippetLens.Files.Failure
import SnippetLens.Text.ByteLines

/-!
What a running tool says on its two streams, written down line by line.

The streams are read as their bytes arrive, in pieces of any length and in any order. A line of a
stream is written down when it is complete, or when its stream ends; so the lines of the two are
interleaved, and never mixed. A line that is still incomplete when the tool is stopped is not
written down.
-/

namespace SnippetLens.Tool

open Files Build

inductive Stream where
  | output
  | errors
  deriving DecidableEq, Repr

inductive Arrival where
  | bytes (stream : Stream) (chunk : List UInt8)
  /-- Nothing more comes from the stream. -/
  | ended (stream : Stream)
  deriving DecidableEq, Repr

/-- How the reading of a tool came to its end. -/
inductive Ending where
  | exited (code : Int)
  /-- A signal ended the tool. -/
  | signalled
  /-- The tool was stopped at its time limit, which is in milliseconds. -/
  | expired (limit : Nat)
  /-- A stream could not be read any more. -/
  | broken (cause : Failure)
  deriving DecidableEq, Repr

structure Capture where
  /-- The lines that were complete, last first. -/
  lines : List String := []
  /-- The line that was begun on the output, last byte first. -/
  output : List UInt8 := []
  /-- The line that was begun on the error stream, last byte first. -/
  errors : List UInt8 := []
  deriving DecidableEq, Repr

namespace Capture

/-- The line that was begun on a stream, last byte first. -/
def begun (c : Capture) : Stream → List UInt8
  | .output => c.output
  | .errors => c.errors

def begin (c : Capture) (line : List UInt8) : Stream → Capture
  | .output => { c with output := line }
  | .errors => { c with errors := line }

@[simp] theorem begun_begin_self (c : Capture) (line : List UInt8) (stream : Stream) :
    (c.begin line stream).begun stream = line := by
  cases stream <;> rfl

theorem begun_begin_of_ne (c : Capture) (line : List UInt8) {stream other : Stream}
    (h : other ≠ stream) : (c.begin line stream).begun other = c.begun other := by
  cases stream <;> cases other <;> simp_all [begin, begun]

/-- Writes down the line that was begun on a stream, if any was. -/
def writeDown (c : Capture) (stream : Stream) : Capture :=
  match c.begun stream with
  | [] => c
  | line => { c.begin [] stream with lines := Text.lineOfBytes line.reverse :: c.lines }

def hear (stream : Stream) (c : Capture) (byte : UInt8) : Capture :=
  let c := c.begin (byte :: c.begun stream) stream
  if byte = Text.lineFeed then c.writeDown stream else c

def receive (c : Capture) : Arrival → Capture
  | .bytes stream chunk => chunk.foldl (hear stream) c
  | .ended stream => c.writeDown stream

def ofArrivals (arrivals : List Arrival) : Capture :=
  arrivals.foldl receive {}

/-- The lines that were written down, each with a line feed. -/
def text (c : Capture) : String :=
  String.join (c.lines.reverse.map (· ++ "\n"))

def result (c : Capture) : Ending → ToolResult
  | .exited code => ⟨code, c.text⟩
  | .signalled => ⟨ToolResult.noExitCode, c.text⟩
  | .expired limit =>
    ⟨ToolResult.noExitCode, c.text ++ "[timed out after " ++ toString (limit / 1000) ++ "s]\n"⟩
  | .broken cause => ⟨ToolResult.noExitCode, c.text ++ "[" ++ cause.message ++ "]\n"⟩

end Capture

end SnippetLens.Tool
