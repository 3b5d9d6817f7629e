/-!
Scripts of the shell, as trees. The text of a script is a sequence of bytes, each written as the
character of its number. A word keeps how its parts were written, since what is quoted is neither
split nor a pattern.
-/

namespace SnippetLens.Shell

abbrev Name := List Char

inductive Rule where
  | value
  | length
  /-- The word stands for a parameter that is not set; or also for an empty one. -/
  | otherwise (orEmpty : Bool)
  /-- As before, and the parameter takes the value. -/
  | assign (orEmpty : Bool)
  /-- As before, and the word says what is wrong. -/
  | demand (orEmpty : Bool)
  /-- The word stands for a parameter that is set; or only for one that is not empty. -/
  | instead (orEmpty : Bool)
  /-- The value without its start or its end that the word is a pattern of. -/
  | trim (front longest : Bool)
  deriving DecidableEq, Repr

inductive Direction where
  | read
  | write
  /-- As before, also where an existing file is not to be overwritten. -/
  | overwrite
  | append
  | readWrite
  /-- What another descriptor leads to. -/
  | duplicate
  /-- The word itself is what is read. -/
  | document
  deriving DecidableEq, Repr

mutual

inductive Piece where
  | text (quoted : Bool) (characters : List Char)
  | parameter (quoted : Bool) (name : Name) (rule : Rule) (word : List Piece)
  | arithmetic (quoted : Bool) (expression : List Piece)
  /-- What a command writes. -/
  | output (quoted : Bool) (command : Command)

inductive Redirection where
  | mk (descriptor : Nat) (direction : Direction) (word : List Piece)

/-- A command. Where a fault can be reported for it, it knows its line in the script. -/
inductive Command where
  | nothing
  /-- Assignments, the words of a command, and redirections. -/
  | simple (line : Nat) (assignments : List (Name × List Piece)) (words : List (List Piece))
      (redirections : List Redirection)
  | sequence (first second : Command)
  | both (first second : Command)
  | either (first second : Command)
  | negation (body : Command)
  /-- Commands that run side by side, each one reading what the one before it writes. -/
  | pipe (background : Bool) (parts : List Command)
  | conditional (test yes no : Command)
  /-- A loop that runs while its test has the expected answer. -/
  | loop (expected : Bool) (test body : Command)
  /-- A loop over the words, or over the arguments. -/
  | each (line : Nat) (name : Name) (words : Option (List (List Piece))) (body : Command)
  | choice (line : Nat) (subject : List Piece) (arms : List (List (List Piece) × Command))
  /-- A command that runs in a shell of its own; the one that started it waits, or it does not. -/
  | subshell (background : Bool) (line : Nat) (body : Command) (redirections : List Redirection)
  | function (name : Name) (body : Command)
  | redirected (line : Nat) (body : Command) (redirections : List Redirection)

end

instance : Inhabited Command := ⟨.nothing⟩

abbrev Word := List Piece

end SnippetLens.Shell
