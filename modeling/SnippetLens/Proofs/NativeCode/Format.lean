import Mathlib.Data.List.TakeWhile
import SnippetLens.Proofs.NativeCode.LastLine
import SnippetLens.Proofs.Text.Composed

/-!
The lines of a native code dump as the tool writes them, and that they are read back.

The signature of a method goes up to the first index behind it. It may hold blanks and most of the
mark of an index; since it ends in no blank, and the mark has none, the mark cannot begin in the
signature and end behind it.
-/

namespace SnippetLens.NativeCode

open Text

def classLine (index name offset type rest : String) : String :=
  index ++ ": L" ++ name ++ "; (offset=0x" ++ offset ++ ") (type_idx=" ++ type ++ ")" ++ rest

def methodLine (indent number signature index rest : String) : String :=
  indent ++ number ++ ": " ++ signature ++ " (dex_method_idx=" ++ index ++ ")" ++ rest

def instructionLine (indent address word gap text : String) : String :=
  indent ++ "0x" ++ address ++ ": " ++ word ++ gap ++ text

/-- Whether a text can be told as a signature: it is on one line, has no blanks at its ends, and
does not hold the mark of an index. -/
structure IsSignature (signature : String) : Prop where
  one_line : '\n' ∉ signature.toList
  front : signature.toList.head?.any isBlank = false
  back : signature.toList.getLast?.any isBlank = false
  unmarked : ¬"(dex_method_idx=".toList <:+: signature.toList

theorem classHeader?_classLine (index : Run isDigit) (name : Run (· != ';'))
    (offset : Run isHexDigit) (type : Run isDigit) (rest : String) :
    classHeader? (classLine index.text name.text offset.text type.text rest) =
      some name.text.toList := by
  have hindex : ": L".toList.head?.map isDigit = some false := by decide
  have hname : "; (offset=0x".toList.head?.map (· != ';') = some false := by decide
  have hoffset : ") (type_idx=".toList.head?.map isHexDigit = some false := by decide
  have htype : [')'].head?.map isDigit = some false := by decide
  have hline : (classLine index.text name.text offset.text type.text rest).toList =
      index.text.toList ++ (": L".toList ++ (name.text.toList ++ ("; (offset=0x".toList ++
        (offset.text.toList ++ (") (type_idx=".toList ++ (type.text.toList ++
          ([')'] ++ rest.toList))))))) := by
    simp only [classLine, String.toList_append, List.append_assoc]
    rfl
  simp only [classHeader?, hline, Option.bind_eq_bind, after?_append, Option.bind_some,
    run?_append index (stops_keyword hindex _), run?_append name (stops_keyword hname _),
    run?_append offset (stops_keyword hoffset _), run?_append type (stops_keyword htype _)]
  rfl

/-! ### Methods -/

theorem isMethodIndex_mark (index : Run isDigit) (rest : List Char) :
    isMethodIndex (" (dex_method_idx=".toList ++ (index.text.toList ++ ([')'] ++ rest))) =
      true := by
  have hmark : "(dex_method_idx=".toList.head?.map isBlank = some false := by decide
  have hindex : [')'].head?.map isDigit = some false := by decide
  have hsplit : " (dex_method_idx=".toList = " ".toList ++ "(dex_method_idx=".toList := by decide
  rw [hsplit, List.append_assoc, isMethodIndex, Option.isSome_iff_exists]
  refine ⟨rest, afterBlanks1_append ⟨" ", by decide, by decide⟩ (stops_keyword hmark _) ?_⟩
  simp only [Option.bind_eq_bind, after?_append, Option.bind_some,
    run?_append index (stops_keyword hindex _)]

theorem mark_of_isMethodIndex {cs : List Char} (h : isMethodIndex cs = true) :
    "(dex_method_idx=".toList <+: dropBlanks cs := by
  obtain ⟨_, hindex⟩ := Option.isSome_iff_exists.1 h
  have hbehind := dropBlanks_of_afterBlanks1 ?_ hindex
  · simp only [Option.bind_eq_bind, Option.bind_eq_some_iff] at hbehind
    obtain ⟨rest, hmark, -⟩ := hbehind
    exact ⟨rest, (after?_eq_some_iff.1 hmark).symm⟩
  · intro c r hc
    have hne : '(' ≠ c := by
      rintro rfl
      exact absurd hc (by decide)
    simp [after?, hne]

theorem isMethodIndex_of_isSignature {signature : String} (h : IsSignature signature)
    {front back : List Char} (hsplit : signature.toList = front ++ back) (hback : back ≠ [])
    (rest : List Char) : isMethodIndex (back ++ ' ' :: rest) = false := by
  rw [Bool.eq_false_iff]
  intro hindex
  have hmark := mark_of_isMethodIndex hindex
  have hlast : isBlank (back.getLast hback) = false := by
    have hend := h.back
    rwa [hsplit, List.getLast?_append_of_ne_nil _ hback, List.getLast?_eq_some_getLast hback]
      at hend
  have hwithin : back.dropWhile isBlank ≠ [] := fun hempty => by
    have hall := List.dropWhile_eq_nil_iff.1 hempty _ (List.getLast_mem hback)
    simp [hlast] at hall
  rw [dropBlanks, List.dropWhile_append, if_neg (by simpa using hwithin),
    ← List.isPrefixOf_iff_prefix, isPrefixOf_append_cons (by decide),
    List.isPrefixOf_iff_prefix] at hmark
  refine h.unmarked (hmark.isInfix.trans ?_)
  rw [hsplit]
  exact (List.dropWhile_suffix _).isInfix.trans (List.suffix_append _ _).isInfix

theorem IsSignature.stops {signature : String} (h : IsSignature signature) (hne : signature ≠ "")
    (rest : List Char) : Stops isBlank (signature.toList ++ rest) := by
  obtain ⟨c, r, hr⟩ := List.exists_cons_of_ne_nil (by simpa using hne : signature.toList ≠ [])
  have hfront := h.front
  rw [hr] at hfront ⊢
  exact stops_cons hfront _

theorem methodHeader?_methodLine (indent : Run isBlank) (number : Run isDigit) {signature : String}
    (hne : signature ≠ "") (h : IsSignature signature) (index : Run isDigit) (rest : String) :
    methodHeader? (methodLine indent.text number.text signature index.text rest) =
      some signature := by
  have hnumber : [':'].head?.map isDigit = some false := by decide
  have hline : (methodLine indent.text number.text signature index.text rest).toList =
      indent.text.toList ++ (number.text.toList ++ ([':'] ++ (" ".toList ++ (signature.toList ++
        (" (dex_method_idx=".toList ++ (index.text.toList ++ ([')'] ++ rest.toList))))))) := by
    simp only [methodLine, String.toList_append, List.append_assoc]
    rfl
  have hsignature := shortestBefore1_append (by simpa using hne) h.one_line
    (isMethodIndex_mark index rest.toList) fun front back hsplit hback =>
      isMethodIndex_of_isSignature h hsplit hback _
  have hspace := afterBlanks1_append ⟨" ", by decide, by decide⟩ (h.stops hne _) hsignature
  rw [methodHeader?, hline, afterBlanks1_append indent
    (number.stops (fun _ => isBlank_of_isDigit) _) (a := signature.toList)]
  · simp
  · simp only [Option.bind_eq_bind, run?_append number (stops_keyword hnumber _), after?_append,
      Option.bind_some, hspace]

/-! ### Instructions -/

section Instructions

variable (address word : Run isHexDigit) (gap : Run isBlank) {text : Run (· != '\n')}
  (h : text.text.toList.head?.any isBlank = false)

include h

theorem text?_word :
    text? (word.text.toList ++ (gap.text.toList ++ text.text.toList)) = some text.text.toList := by
  have hstop := gap.stops (fun _ => Bytecode.isHexDigit_of_isBlank) text.text.toList
  rw [text?, run?_append word hstop, Option.bind_some]
  exact afterBlanks1_append gap (stops_of_head? h) (restOfLine1_run text)

theorem coded?_address :
    coded? ("0x".toList ++ (address.text.toList ++ ([':'] ++ (" ".toList ++ (word.text.toList ++
      (gap.text.toList ++ text.text.toList)))))) =
      some ("0x".toList ++ address.text.toList, text.text.toList) := by
  have hcolon : [':'].head?.map isHexDigit = some false := by decide
  have hstop := word.stops (fun _ => Bytecode.isBlank_of_isHexDigit)
    (gap.text.toList ++ text.text.toList)
  have hword := afterBlanks1_append ⟨" ", by decide, by decide⟩ hstop (text?_word word gap h)
  rw [coded?, after?_append, Option.bind_some, run?_append address (stops_keyword hcolon _),
    Option.bind_some, after?_append, Option.bind_some, hword, Option.bind_some]

theorem instruction?_instructionLine (indent : Run isBlank) :
    instruction? (instructionLine indent.text address.text word.text gap.text text.text) =
      some ("0x" ++ address.text, text.text) := by
  have hlead : "0x".toList.head?.map isBlank = some false := by decide
  have hline : (instructionLine indent.text address.text word.text gap.text text.text).toList =
      indent.text.toList ++ ("0x".toList ++ (address.text.toList ++ ([':'] ++ (" ".toList ++
        (word.text.toList ++ (gap.text.toList ++ text.text.toList)))))) := by
    simp only [instructionLine, String.toList_append, List.append_assoc]
    rfl
  rw [instruction?_eq, hline, afterBlanks1_append indent (stops_keyword hlead _)
    (coded?_address address word gap h)]
  simp only [Option.bind_some, String.ofList_append, String.ofList_toList]

end Instructions

end SnippetLens.NativeCode
