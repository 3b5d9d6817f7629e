import SnippetLens.Proofs.Bytecode.Format
import SnippetLens.Proofs.NativeCode.Format

/-!
What is read from the lines of a dump is what was written into them, whatever that is.

The one text that is not read back is the empty signature.
-/

namespace SnippetLens.Listing

open Text

/-- The names, types, signatures and instructions that a tool writes into the lines of a dump are
read back as they were written. -/
theorem extraction_inverts_formats :
    ((∀ name : Run (· != '\n'),
        Bytecode.classDescriptor? (Bytecode.descriptorLine name.text) = some name.text.toList) ∧
      (∀ name : Run (· != '\n'),
        Bytecode.methodName? (Bytecode.nameLine name.text) = some name.text) ∧
      (∀ type : Run (· != '\n'),
        Bytecode.methodType? (Bytecode.typeLine type.text) = some type.text) ∧
      ∀ (offset : Run isHexDigit) (words : Run (· != '|')) (address : Run isHexDigit)
        (text : Run (· != '\n')),
        Bytecode.BodyLine.ofLine
            (Bytecode.instructionLine offset.text words.text address.text text.text) =
          .instruction (address.text ++ ": " ++ text.text)) ∧
    (∀ (index : Run isDigit) (name : Run (· != ';')) (offset : Run isHexDigit)
        (type : Run isDigit) (rest : String),
        NativeCode.classHeader?
            (NativeCode.classLine index.text name.text offset.text type.text rest) =
          some name.text.toList) ∧
      (∀ (indent : Run isBlank) (number : Run isDigit) (signature : String) (index : Run isDigit)
        (rest : String), signature ≠ "" → NativeCode.IsSignature signature →
        NativeCode.methodHeader?
            (NativeCode.methodLine indent.text number.text signature index.text rest) =
          some signature) ∧
      ∀ (indent : Run isBlank) (address word : Run isHexDigit) (gap : Run isBlank)
        (text : Run (· != '\n')), text.text.toList.head?.any isBlank = false →
        NativeCode.instruction? (NativeCode.instructionLine indent.text address.text word.text
            gap.text text.text) =
          some ("0x" ++ address.text, text.text) := by
  refine ⟨⟨Bytecode.classDescriptor?_descriptorLine, Bytecode.methodName?_nameLine,
    Bytecode.methodType?_typeLine, Bytecode.ofLine_instructionLine⟩,
    NativeCode.classHeader?_classLine, ?_, ?_⟩
  · intro indent number signature index rest hne h
    exact NativeCode.methodHeader?_methodLine indent number hne h index rest
  · intro indent address word gap text h
    exact NativeCode.instruction?_instructionLine address word gap h indent

/-- A signature that holds the mark of an index but for its last character, and an instruction whose
text holds a bar. -/
theorem extraction_inverts_formats_marks :
    ("f() (dex_method_idx" ≠ "" ∧ NativeCode.IsSignature "f() (dex_method_idx" ∧
      NativeCode.methodHeader? (NativeCode.methodLine "  " "0" "f() (dex_method_idx" "1" "=2)") =
        some "f() (dex_method_idx") ∧
    "| ret ".toList.head?.any isBlank = false ∧
      NativeCode.instruction? (NativeCode.instructionLine "      " "1f" "0e00" " \t" "| ret ") =
        some ("0x1f", "| ret ") := by
  have hsignature : NativeCode.IsSignature "f() (dex_method_idx" :=
    ⟨by decide, by decide, by decide, by rw [← occursIn_iff]; decide +kernel⟩
  have hne : "f() (dex_method_idx" ≠ "" := by decide
  have htext : "| ret ".toList.head?.any isBlank = false := by decide
  obtain ⟨-, -, hmethod, hinstruction⟩ := extraction_inverts_formats
  exact ⟨⟨hne, hsignature, hmethod ⟨"  ", by decide, by decide⟩ ⟨"0", by decide, by decide⟩ _
      ⟨"1", by decide, by decide⟩ _ hne hsignature⟩,
    htext, hinstruction ⟨"      ", by decide, by decide⟩ ⟨"1f", by decide, by decide⟩
      ⟨"0e00", by decide, by decide⟩ ⟨" \t", by decide, by decide⟩
      ⟨"| ret ", by decide, by decide⟩ htext⟩

/-- The empty text is on one line, has no blanks at its ends and holds no mark, but a header without
a signature is none. -/
theorem methodHeader?_of_no_signature :
    NativeCode.IsSignature "" ∧
      NativeCode.methodHeader? (NativeCode.methodLine "  " "0" "" "0" "") ≠ some "" :=
  ⟨⟨by decide, by decide, by decide, by decide⟩, by decide +kernel⟩

end SnippetLens.Listing
