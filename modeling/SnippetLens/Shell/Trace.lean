import SnippetLens.Shell.Invocation
import SnippetLens.Shell.Reader

/-!
What comes between the words of a simple command and the command itself: its assignments, and the
line that tells it where commands are traced. The start of that line is a text of the script, in
which something may be wrong; then it is told as it is.
-/

namespace SnippetLens.Shell

/-- The line that tells a command before it runs, and what is wrong with the text at its start. -/
structure Trace where
  complaint : Option String
  line : List Char

def Dialogue.tried {α : Type} : Dialogue α → Dialogue (Except String α)
  | done s result => done s (.ok result)
  | fault s message => done s (.error message)
  | death s signal => death s signal
  | output s command resume => output s command fun s text status => (resume s text status).tried
  | paths s pattern resume => paths s pattern fun found => (resume found).tried

namespace Expand

def tried {α : Type} (e : Expand α) : Expand (Except String α) :=
  fun s => (e s).tried

/-- Assigns to the variables before a command, and tells how. They may be handed to programs, and
may be given back later. -/
def assignAll (gaveBack exported : Bool) : List (Name × Word) → Expand (List (List Char))
  | [] => return []
  | (name, word) :: rest => do
    let value ← assigned word
    let old := (← state).lookup? name
    attempt (·.put name value exported)
    if gaveBack then change (·.remember (.variable name old))
    return (name ++ '=' :: value) :: (← assignAll gaveBack exported rest)

/-- The text at the start of a line that tells a command. Commands in it are not told. -/
def traceStart : Expand (Option String × List Char) := do
  let written := (← state).get "PS4"
  match Source.document { rest := written } with
  | .error e =>
    change fun s => { s with line := e.line }
    return (some e.fault.message, written)
  | .ok word =>
    change (·.turn .traces false)
    let start ← tried (document word)
    change (·.turn .traces true)
    match start with
    | .ok start => return (none, start)
    | .error message => return (some message, written)

def trace (words : List (List Char)) : Expand (Option Trace) := do
  if (← state).has .traces then
    let (complaint, start) ← traceStart
    return some ⟨complaint, start ++ [' '].intercalate words ++ ['\n']⟩
  else return none

end Expand

end SnippetLens.Shell
