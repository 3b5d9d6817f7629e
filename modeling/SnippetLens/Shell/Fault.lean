/-!
What can be wrong with the text of a script.
-/

namespace SnippetLens.Shell

inductive Fault where
  | openQuote
  | openBackquote
  | openBrace
  | openArithmetic
  | unexpected (found : String) (expected : Option String)
  | functionName
  | loopVariable
  /-- Only a digit or a dash can stand for a descriptor. -/
  | descriptor
  deriving DecidableEq, Repr

def Fault.message (fault : Fault) : String :=
  "Syntax error: " ++
    match fault with
    | openQuote => "Unterminated quoted string"
    | openBackquote => "EOF in backquote substitution"
    | openBrace => "Missing '\x7d'"
    | openArithmetic => "Missing '))'"
    | unexpected found none => found ++ " unexpected"
    | unexpected found (some "word") => found ++ " unexpected (expecting word)"
    | unexpected found (some expected) => found ++ " unexpected (expecting \"" ++ expected ++ "\")"
    | functionName => "Bad function name"
    | loopVariable => "Bad for loop variable"
    | descriptor => "Bad fd number"

structure SyntaxError where
  line : Nat
  fault : Fault
  deriving DecidableEq, Repr

/-- The fault and its line where the text is a document. What does not end there is known only on
the line after it, and quotation marks need no end. -/
def SyntaxError.inDocument (e : SyntaxError) : SyntaxError :=
  match e.fault with
  | .openQuote | .openBrace => ⟨e.line + 1, .openBrace⟩
  | .openBackquote | .openArithmetic => ⟨e.line + 1, e.fault⟩
  | _ => e

end SnippetLens.Shell
