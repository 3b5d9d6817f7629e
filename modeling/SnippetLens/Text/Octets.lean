import SnippetLens.Text.Utf8

/-!
Bytes written as characters: each byte is the character of its number. A language that is defined
on bytes, and whose signs are all ASCII, reads well in this form.
-/

namespace SnippetLens.Text.Octets

def ofBytes (bytes : List UInt8) : List Char :=
  bytes.map fun b => Char.ofNat b.toNat

def toBytes (cs : List Char) : List UInt8 :=
  cs.map fun c => UInt8.ofNat c.toNat

def ofText (text : String) : List Char :=
  ofBytes (Utf8.encode text)

def toText (cs : List Char) : String :=
  Utf8.lenient (toBytes cs)

end SnippetLens.Text.Octets
