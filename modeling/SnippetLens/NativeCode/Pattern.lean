import SnippetLens.Text.Match
import SnippetLens.Text.Search

/-!
The lines that a native code dump (`oatdump`) is made of, and what each of them says. All of
them are recognised from their first character on.
-/

namespace SnippetLens.NativeCode

open Text

/-- The class in `1: Lcom/example/Bar; (offset=0x00000590) (type_idx=2) (Initialized)`, its
packages parted by slashes. -/
def classHeader? (line : String) : Option (List Char) := do
  let (_, afterIndex) ← run? isDigit line.toList
  let descriptor ← after? ": L".toList afterIndex
  let (name, afterName) ← run? (· != ';') descriptor
  let offset ← after? "; (offset=0x".toList afterName
  let (_, afterOffset) ← run? isHexDigit offset
  let type ← after? ") (type_idx=".toList afterOffset
  let (_, afterType) ← run? isDigit type
  let _ ← after? [')'] afterType
  return name

/-- Whether the characters begin with blanks and the index of a method,
` (dex_method_idx=1)`. -/
def isMethodIndex (cs : List Char) : Bool :=
  (afterBlanks1 (fun cs => do
    let index ← after? "(dex_method_idx=".toList cs
    let (_, rest) ← run? isDigit index
    after? [')'] rest) cs).isSome

/-- The signature in `  0: void com.example.Bar.bar() (dex_method_idx=1)`: what stands between
the number and the first index, without the blanks around it. -/
def methodHeader? (line : String) : Option String := do
  let signature ← afterBlanks1 (fun cs => do
    let (_, afterNumber) ← run? isDigit cs
    let rest ← after? [':'] afterNumber
    afterBlanks1 (shortestBefore1 isMethodIndex) rest) line.toList
  return String.ofList signature

/-- The address and the text in `      0x00001010: d65f03c0	ret`. -/
def instruction? (line : String) : Option (String × String) := do
  let (address, text) ← afterBlanks1 (fun cs => do
    let (digits, afterDigits) ← run? isHexDigit (← after? "0x".toList cs)
    let afterColon ← after? [':'] afterDigits
    let text ← afterBlanks1 (fun cs => do
      let (_, afterWord) ← run? isHexDigit cs
      afterBlanks1 restOfLine1 afterWord) afterColon
    return ("0x".toList ++ digits, text)) line.toList
  return (String.ofList address, String.ofList text)

def opensListing (line : String) : Bool :=
  "OatDexFile:".toList.isPrefixOf (dropBlanks line.toList)

def headsCode (line : String) : Bool :=
  contains "CODE: " line

end SnippetLens.NativeCode
