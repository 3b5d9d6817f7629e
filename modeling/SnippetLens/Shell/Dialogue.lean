import SnippetLens.Shell.Arithmetic
import SnippetLens.Shell.Pattern

/-!
Computations that ask questions. Expanding a word is a computation on the state of a shell, but for
what a command in it writes, and which paths a pattern takes: that is asked for, and the
computation goes on with the answer. So the questions are asked one after another, each in the
state that was reached by then, and only those whose answers count.
-/

namespace SnippetLens.Shell

inductive Dialogue (α : Type) where
  | done (s : State) (result : α)
  /-- There is no result. -/
  | fault (s : State) (message : String)
  /-- The shell does not live to see the result. -/
  | death (s : State) (signal : Signal)
  /-- Asks what a command writes, and for its answer. -/
  | output (s : State) (command : Command) (resume : State → List Char → Nat → Dialogue α)
  /-- Asks for the paths that a pattern takes. -/
  | paths (s : State) (pattern : List Marked) (resume : List (List Char) → Dialogue α)

def Dialogue.bind {α β : Type} : Dialogue α → (State → α → Dialogue β) → Dialogue β
  | done s a, next => next s a
  | fault s message, _ => fault s message
  | death s signal, _ => death s signal
  | output s command resume, next => output s command fun s text status =>
      (resume s text status).bind next
  | paths s pattern resume, next => paths s pattern fun found => (resume found).bind next

def Expand (α : Type) : Type :=
  State → Dialogue α

namespace Expand

instance : Monad Expand where
  pure a := fun s => .done s a
  bind m next := fun s => (m s).bind fun s a => next a s

def state : Expand State :=
  fun s => .done s s

def change (f : State → State) : Expand Unit :=
  fun s => .done (f s) ()

def refuse {α : Type} (message : String) : Expand α :=
  fun s => .fault s message

def attempt (f : State → Except String State) : Expand Unit :=
  fun s =>
    match f s with
    | .ok s => .done s ()
    | .error message => .fault s message

def valueOf (expression : List Char) : Expand Int64 :=
  fun s =>
    match s.calculate expression with
    | .ok (value, s) => .done s value
    | .error e =>
      match e.signal? with
      | some signal => .death s signal
      | none => .fault s (e.message expression)

def outputOf (command : Command) : Expand (List Char) :=
  fun s => .output s command fun s text status =>
    .done { s with outputStatus := status } (text.reverse.dropWhile (· = '\n')).reverse

def pathsOf (pattern : List Marked) : Expand (List (List Char)) :=
  fun s => .paths s pattern fun found => .done s found

end Expand

end SnippetLens.Shell
