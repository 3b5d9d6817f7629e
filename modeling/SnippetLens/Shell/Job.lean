import SnippetLens.Shell.Number
import SnippetLens.Shell.Signal

/-!
Jobs: the processes that a shell has started and will ask about. A job is one process, or those of
a pipe; it is over when all of them are.
-/

namespace SnippetLens.Shell

inductive Outcome where
  | exited (code : Nat)
  | killed (signal : Signal)
  deriving DecidableEq, Repr

namespace Outcome

def status : Outcome → Nat
  | exited code => code
  | killed signal => 128 + signal

def notice? : Outcome → Option String
  | exited _ => none
  | killed signal => if signal = 2 || signal = 13 then none else some signal.description

def describe : Outcome → String
  | exited 0 => "Done"
  | exited code => "Done(" ++ toString code ++ ")"
  | killed signal => signal.description

end Outcome

structure Job where
  number : Nat
  /-- The processes, and how those of them that are over ended. -/
  members : List (Nat × Option Outcome)
  /-- Whether the shell has waited for it. -/
  waited : Bool := false
  deriving DecidableEq, Repr

namespace Job

def isOver (j : Job) : Bool :=
  j.members.all (·.2.isSome)

def outcome (j : Job) : Outcome :=
  ((j.members.getLast?.bind (·.2)).getD (.exited 0))

def leader (j : Job) : Nat :=
  (j.members.head?.map (·.1)).getD 0

def last (j : Job) : Nat :=
  (j.members.getLast?.map (·.1)).getD 0

def record (j : Job) (process : Nat) (outcome : Outcome) : Job :=
  { j with members := j.members.map fun m =>
      if m.1 = process && m.2.isNone then (process, some outcome) else m }

/-- The lines that list the job; `mark` tells the job that was started last and the one before. -/
def listing (j : Job) (mark : Char) (withProcesses : Bool) : String :=
  let start := "[" ++ toString j.number ++ "] " ++ String.ofList [mark] ++ " "
  let say := fun (o : Option Outcome) => if o.isNone then "Running" else
    ((o.map Outcome.describe).getD "")
  let whole := if j.isOver then say (some j.outcome) else "Running"
  let pad := fun (s : String) => s ++ String.ofList (List.replicate (max 1 (33 - s.length)) ' ')
  if withProcesses then
    let indent := String.ofList (List.replicate start.length ' ')
    let line := fun (first : Bool) (m : Nat × Option Outcome) =>
      if first then pad (start ++ toString m.1 ++ " " ++ whole)
      else " |\n" ++ pad (indent ++ toString m.1 ++ " ")
    match j.members with
    | [] => "\n"
    | m :: ms => line true m ++ String.join (ms.map (line false)) ++ "\n"
  else pad (start ++ whole) ++ String.join (j.members.tail.map fun _ => " | ") ++ "\n"

/-- The jobs with one more, which is the last one started and has the first free number. A job
that is over and was waited for does not keep its number. -/
def start (jobs : List Job) (members : List Nat) : Nat × List Job :=
  let taken := fun (n : Nat) => jobs.any fun j => j.number = n && !(j.isOver && j.waited)
  let numbers := (List.range (jobs.length + 1)).map (· + 1)
  let number := (numbers.find? fun n => !taken n).getD 1
  let others := jobs.filter (·.number ≠ number)
  (number, ⟨number, members.map (·, none), false⟩ :: others)

def mark (jobs : List Job) (j : Job) : Char :=
  if (jobs[0]?).map (·.number) = some j.number then '+'
  else if (jobs[1]?).map (·.number) = some j.number then '-'
  else ' '

end Job

end SnippetLens.Shell
