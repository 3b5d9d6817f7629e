import SnippetLens.Text.Lines
import SnippetLens.Text.Utf8

/-!
Lines of bytes. They are cut at line feeds, and each is read as text on its own; a carriage return
is dropped at the end of every line, also of a last one that no line feed ends.
-/

namespace SnippetLens.Text

def lineFeed : UInt8 := 10

def carriageReturn : UInt8 := 13

def lineOfBytes (piece : List UInt8) : String :=
  Utf8.lenient (dropEnd carriageReturn (dropEnd lineFeed piece))

def byteLines (bytes : List UInt8) : List String :=
  (pieces lineFeed bytes).map lineOfBytes

end SnippetLens.Text
