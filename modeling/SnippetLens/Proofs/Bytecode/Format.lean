import SnippetLens.Proofs.Bytecode.Pattern
import SnippetLens.Proofs.Text.Composed

/-!
The lines of a bytecode dump as the tool writes them, and that they are read back.

A field is found where its keyword first stands, right behind the blanks of the line, and its value
goes on to the last closing mark; so a value may hold keywords and marks itself. An instruction
begins behind the first bar, and may hold others.
-/

namespace SnippetLens.Bytecode

open Text

def descriptorLine (name : String) : String :=
  "  Class descriptor  : 'L" ++ name ++ ";'"

def nameLine (name : String) : String :=
  "      name          : '" ++ name ++ "'"

def typeLine (type : String) : String :=
  "      type          : '" ++ type ++ "'"

def instructionLine (offset words address text : String) : String :=
  offset ++ ":" ++ words ++ "|" ++ address ++ ": " ++ text

/-- A field that stands behind blanks has the value up to the end of the line. -/
theorem field?_of_front {front keyword opening : String} (indent gap space : List Char)
    (closing : String)
    (hfront : front.toList =
      indent ++ (keyword.toList ++ (gap ++ ([':'] ++ (space ++ opening.toList)))))
    (hindent : indent.all isBlank = true) (hgap : gap.all isBlank = true)
    (hspace : space.all isBlank = true)
    (hkeyword : keyword.toList.head?.map isBlank = some false)
    (hopening : opening.toList.head?.map isBlank = some false) (value : Run (· != '\n')) :
    field? keyword opening closing (front ++ value.text ++ closing) = some value.text.toList := by
  have hearlier : ∀ c ∈ indent, ∀ r,
      fieldHere? keyword.toList opening.toList closing.toList (c :: r) = none := by
    intro c hc r
    obtain ⟨k, hk, hblank⟩ := Option.map_eq_some_iff.1 hkeyword
    obtain ⟨keys, hkeys⟩ := List.head?_eq_some_iff.1 hk
    have hne : k ≠ c := by
      rintro rfl
      simp [List.all_eq_true.1 hindent _ hc] at hblank
    simp [fieldHere?, hkeys, after?, hne]
  simp only [field?, String.toList_append, hfront, List.append_assoc]
  refine leftmost_append hearlier ?_
  have hcolon : isBlank ':' = false := by decide
  have hstop : Stops isBlank ([':'] ++ (space ++ (opening.toList ++ (value.text.toList ++
      closing.toList)))) := stops_cons hcolon _
  simp only [fieldHere?, Option.bind_eq_bind, after?_append, Option.bind_some,
    dropBlanks_append (List.all_eq_true.1 hgap) hstop,
    dropBlanks_append (List.all_eq_true.1 hspace) (stops_keyword hopening _),
    longestBefore1_append]

theorem classDescriptor?_descriptorLine (name : Run (· != '\n')) :
    classDescriptor? (descriptorLine name.text) = some name.text.toList :=
  field?_of_front "  ".toList "  ".toList " ".toList ";'" (by decide) (by decide) (by decide)
    (by decide) (by decide) (by decide) name

/-- A field with a keyword of four letters, as the name and the type of a method have it. -/
theorem field?_of_shortKeyword (front keyword : String)
    (hfront : front.toList = "      ".toList ++ (keyword.toList ++ ("          ".toList ++
      ([':'] ++ (" ".toList ++ "'".toList)))))
    (hkeyword : keyword.toList.head?.map isBlank = some false) (value : Run (· != '\n')) :
    field? keyword "'" "'" (front ++ value.text ++ "'") = some value.text.toList :=
  field?_of_front _ _ _ _ hfront (by decide) (by decide) (by decide) hkeyword (by decide) value

theorem methodName?_nameLine (name : Run (· != '\n')) :
    methodName? (nameLine name.text) = some name.text := by
  have hfield :=
    field?_of_shortKeyword "      name          : '" "name" (by decide) (by decide) name
  unfold methodName? nameLine
  rw [hfield]
  simp

theorem methodType?_typeLine (type : Run (· != '\n')) :
    methodType? (typeLine type.text) = some type.text := by
  have hfield :=
    field?_of_shortKeyword "      type          : '" "type" (by decide) (by decide) type
  unfold methodType? typeLine
  rw [hfield]
  simp

theorem instruction?_instructionLine (offset : Run isHexDigit) (words : Run (· != '|'))
    (address : Run isHexDigit) (text : Run (· != '\n')) :
    instruction? (instructionLine offset.text words.text address.text text.text) =
      some (address.text ++ ": " ++ text.text) := by
  have hcolon : [':'].head?.map isHexDigit = some false := by decide
  have hbar : ['|'].head?.map (· != '|') = some false := by decide
  have hmark : ": ".toList.head?.map isHexDigit = some false := by decide
  have hline : (instructionLine offset.text words.text address.text text.text).toList =
      offset.text.toList ++ ([':'] ++ (words.text.toList ++ (['|'] ++ (address.text.toList ++
        (": ".toList ++ text.text.toList))))) := by
    simp only [instructionLine, String.toList_append, List.append_assoc]
    rfl
  simp only [instruction?, hline, Option.bind_eq_bind, after?_append, Option.bind_some,
    run?_append offset (stops_keyword hcolon _), run?_append words (stops_keyword hbar _),
    run?_append address (stops_keyword hmark _), restOfLine1_run, String.ofList_append,
    String.ofList_toList]
  rfl

theorem ofLine_instructionLine (offset : Run isHexDigit) (words : Run (· != '|'))
    (address : Run isHexDigit) (text : Run (· != '\n')) :
    BodyLine.ofLine (instructionLine offset.text words.text address.text text.text) =
      .instruction (address.text ++ ": " ++ text.text) := by
  rw [BodyLine.ofLine, instruction?_instructionLine]

end SnippetLens.Bytecode
