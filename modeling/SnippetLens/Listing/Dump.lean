import SnippetLens.Bytecode.Reader
import SnippetLens.NativeCode.Reader
import SnippetLens.Text.Lines

/-!
The two formats of dumps, and condensing one of either.
-/

namespace SnippetLens.Listing

inductive DumpKind where
  /-- What `dexdump -d` writes. -/
  | bytecode
  /-- What `oatdump` writes. -/
  | nativeCode
  deriving DecidableEq, Repr

namespace DumpKind

def condenseLines (options : FilterOptions) (lines : List String) : DumpKind → String
  | .bytecode => Bytecode.condense options lines
  | .nativeCode => NativeCode.condense options lines

def condense (options : FilterOptions) (dump : String) (kind : DumpKind) : String :=
  kind.condenseLines options (Text.lines dump)

/-- The condensed listing of what a source hands out, and the source after it was read. -/
def condenseSource {σ : Type} [LineSource σ] (options : FilterOptions) (source : σ) :
    DumpKind → String × σ
  | .bytecode =>
    let (items, c) := Bytecode.readDump options source
    (Bytecode.render items, c.source)
  | .nativeCode =>
    let (items, c) := NativeCode.readDump options source
    (NativeCode.render items, c.source)

end DumpKind

end SnippetLens.Listing
