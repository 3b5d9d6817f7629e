import SnippetLens.Proofs.Text.Lines

/-!
Decoding a text at once and decoding it line by line.

A line feed is read as itself whatever was begun before it, and nothing that was begun goes on
behind it: a character that is cut off there is a fault, in both ways of reading. So the text of
some lines is the texts of the lines, each with its line feed. A carriage return is ASCII as well,
so it does not matter either whether it is dropped from the bytes of a line or from their text.
-/

namespace SnippetLens.Text

namespace Utf8

/-- An ASCII byte parts what stands before it from what stands behind it. -/
theorem decodeFrom_append_ascii {s : State} (hs : s.Proper) (front rest : List UInt8) {b : UInt8}
    (hb : b.toNat < 0x80) :
    decodeFrom s (front ++ b :: rest) =
      decodeFrom s front ++ some (Char.ofNat b.toNat) :: decodeFrom none rest := by
  induction front generalizing s with
  | nil => simp [decodeFrom, step_of_ascii hs hb]
  | cons a front ih =>
    rw [List.cons_append, decodeFrom, ih (proper_step hs a), decodeFrom, List.append_assoc]

theorem toList_lenient_append_ascii (front rest : List UInt8) {b : UInt8} (hb : b.toNat < 0x80) :
    (lenient (front ++ b :: rest)).toList =
      (lenient front).toList ++ Char.ofNat b.toNat :: (lenient rest).toList := by
  simp only [lenient, decode_eq_decodeFrom, String.toList_ofList,
    decodeFrom_append_ascii proper_none front rest hb]
  simp

end Utf8

/-! ### The texts of lines -/

theorem toList_lenient_ended (lines : List (List UInt8)) :
    (Utf8.lenient (ended lineFeed lines)).toList =
      ended '\n' (lines.map fun line => (Utf8.lenient line).toList) := by
  induction lines with
  | nil => rfl
  | cons line lines ih =>
    have hcons : ended lineFeed (line :: lines) = line ++ lineFeed :: ended lineFeed lines := by
      simp [ended]
    rw [hcons, Utf8.toList_lenient_append_ascii line _ (by decide), ih]
    simp [ended, lineFeed]

theorem toList_lenient_dropEnd (line : List UInt8) :
    (Utf8.lenient (dropEnd carriageReturn line)).toList =
      dropEnd '\r' (Utf8.lenient line).toList := by
  by_cases hreturn : line.getLast? = some carriageReturn
  · obtain ⟨front, rfl⟩ := List.getLast?_eq_some_iff.1 hreturn
    have hlast : (Utf8.lenient (front ++ [carriageReturn])).toList =
        (Utf8.lenient front).toList ++ ['\r'] :=
      Utf8.toList_lenient_append_ascii front [] (by decide)
    rw [hlast, dropEnd_concat, dropEnd_concat]
  · have hkept : (Utf8.lenient line).toList.getLast? ≠ some '\r' := by
      intro hlast
      exact hreturn (Utf8.getLast?_of_getLast?_lenient (by decide) (by decide) hlast)
    rw [dropEnd_eq_self_iff.2 hreturn, dropEnd_eq_self_iff.2 hkept]

/-! ### Line ends -/

/-- The characters with a line feed for each carriage return and line feed. -/
def plainEnds : List Char → List Char
  | [] => []
  | '\r' :: '\n' :: r => '\n' :: plainEnds r
  | c :: r => c :: plainEnds r

theorem plainEnds_cons_of_ne {c d : Char} (h : d ≠ '\n') (r : List Char) :
    plainEnds (c :: d :: r) = c :: plainEnds (d :: r) := by
  rw [plainEnds]
  rintro r' - hr
  exact h (List.cons.inj hr).1

/-- In a line that is ended, this is a matter of the carriage return at its end. -/
theorem plainEnds_append_cons {line : List Char} (h : '\n' ∉ line) (rest : List Char) :
    plainEnds (line ++ '\n' :: rest) = dropEnd '\r' line ++ '\n' :: plainEnds rest := by
  induction line with
  | nil => simp [plainEnds, dropEnd]
  | cons c line ih =>
    obtain ⟨hc, hline⟩ := List.ne_and_not_mem_of_not_mem_cons h
    cases line with
    | nil =>
      by_cases hreturn : c = '\r'
      · subst hreturn
        rfl
      · simp_all [plainEnds, dropEnd]
    | cons d line =>
      have hd : d ≠ '\n' := (List.ne_and_not_mem_of_not_mem_cons hline).1.symm
      have hdrop : dropEnd '\r' (c :: d :: line) = c :: dropEnd '\r' (d :: line) := by
        unfold dropEnd
        rw [List.getLast?_cons_cons]
        split <;> simp
      rw [hdrop, List.cons_append, List.cons_append, plainEnds_cons_of_ne hd]
      exact congrArg (c :: ·) (ih hline)

theorem plainEnds_ended {lines : List (List Char)} (h : ∀ line ∈ lines, '\n' ∉ line) :
    plainEnds (ended '\n' lines) = ended '\n' (lines.map (dropEnd '\r')) := by
  induction lines with
  | nil => rfl
  | cons line lines ih =>
    obtain ⟨hline, hlines⟩ := List.forall_mem_cons.1 h
    have hcons : ended '\n' (line :: lines) = line ++ '\n' :: ended '\n' lines := by simp [ended]
    rw [hcons, plainEnds_append_cons hline, ih hlines]
    simp [ended]

/-! ### Bytes written down line by line -/

def endLastByteLine (bytes : List UInt8) : List UInt8 :=
  if bytes.getLast? = some lineFeed then bytes else bytes ++ [lineFeed]

theorem endLastByteLine_ended_append {lines : List (List UInt8)} {rest : List UInt8}
    (hrest : lineFeed ∉ rest) (hne : ended lineFeed lines ++ rest ≠ []) :
    endLastByteLine (ended lineFeed lines ++ rest) = ended lineFeed (lines ++ openLine rest) := by
  rcases List.eq_nil_or_concat rest with rfl | ⟨front, last, rfl⟩
  · rcases List.eq_nil_or_concat lines with rfl | ⟨front, line, rfl⟩
    · exact absurd rfl hne
    · simp [endLastByteLine, ended]
  · rw [List.concat_eq_append] at hrest ⊢
    have hlast : last ≠ lineFeed := by
      rintro rfl
      exact hrest (by simp)
    rw [openLine_of_ne_nil (by simp)]
    simp [endLastByteLine, ended, hlast]

/-- The lines of bytes, each with a line feed, are the text of all the bytes, but for the carriage
returns before line feeds. -/
theorem join_byteLines_eq {bytes : List UInt8} (h : bytes ≠ []) :
    String.join ((byteLines bytes).map (· ++ "\n")) =
      String.ofList (plainEnds (Utf8.lenient (endLastByteLine bytes)).toList) := by
  obtain ⟨lines, rest, hlines, hrest, rfl⟩ := exists_lines lineFeed bytes
  have hfeed : ∀ line ∈ (lines ++ openLine rest).map fun line => (Utf8.lenient line).toList,
      '\n' ∉ line := by
    intro line hline hmem
    obtain ⟨piece, hpiece, rfl⟩ := List.mem_map.1 hline
    exact notMem_of_mem_append_openLine hlines hrest piece hpiece
      (Utf8.mem_of_mem_lenient (by decide) (by decide) hmem)
  apply String.toList_injective
  rw [endLastByteLine_ended_append hrest h, toList_lenient_ended, plainEnds_ended hfeed,
    byteLines_ended_append hlines hrest]
  simp [ended, List.flatMap_map, toList_lenient_dropEnd]

end SnippetLens.Text
