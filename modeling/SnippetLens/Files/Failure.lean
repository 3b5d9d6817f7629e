/-!
Why an operation on files or on a process failed, and the words for it.
-/

namespace SnippetLens.Files

inductive Failure where
  | notFound
  | exists
  | notDirectory
  | isDirectory
  | denied
  | notExecutable
  | nameTooLong
  | tooManyLinks
  | busy
  /-- A directory was asked for, and not even its root could be made. -/
  | wholeTree
  /-- The bytes of a text are not UTF-8. -/
  | notUtf8
  /-- A path holds the character zero. -/
  | zeroInPath
  /-- A program or one of its arguments holds the character zero. -/
  | zeroInArgument
  deriving DecidableEq, Repr

def Failure.reason : Failure → String
  | .notFound => "No such file or directory"
  | .exists => "File exists"
  | .notDirectory => "Not a directory"
  | .isDirectory => "Is a directory"
  | .denied => "Permission denied"
  | .notExecutable => "Exec format error"
  | .nameTooLong => "File name too long"
  | .tooManyLinks => "Too many levels of symbolic links"
  | .busy => "Text file busy"
  | .wholeTree => "failed to create whole tree"
  | .notUtf8 => "stream did not contain valid UTF-8"
  | .zeroInPath => "file name contained an unexpected NUL byte"
  | .zeroInArgument => "nul byte found in provided data"

/-- The number that the operating system gives a cause, if it is one of its own. -/
def Failure.number? : Failure → Option Nat
  | .notFound => some 2
  | .exists => some 17
  | .notDirectory => some 20
  | .isDirectory => some 21
  | .denied => some 13
  | .notExecutable => some 8
  | .nameTooLong => some 36
  | .tooManyLinks => some 40
  | .busy => some 26
  | .wholeTree | .notUtf8 | .zeroInPath | .zeroInArgument => none

def Failure.message (cause : Failure) : String :=
  match cause.number? with
  | some n => cause.reason ++ " (os error " ++ toString n ++ ")"
  | none => cause.reason

end SnippetLens.Files
