import SnippetLens.Proofs.Text.Decoding
import SnippetLens.Text.ByteLines

/-!
The lines of a text and the lines of its bytes.

Every sequence is some lines that each end with the separator, and a rest without one; this is all
that cutting it into pieces finds out. A line feed is one byte in UTF-8 and no part of another
character, so the rest and the lines of a text become those of its bytes.

Both ways to read lines drop a carriage return before a line feed. They differ only in the rest: the
lines of bytes drop a carriage return there too, as if a line feed followed it. So the lines of the
bytes of a text are the lines of the text with its last line ended.
-/

namespace SnippetLens.Text

/-! ### Pieces of any sequence -/

section Sequences

variable {α : Type} {separator : α}

/-- The sequence of some lines, each ended by the separator. -/
def ended (separator : α) (lines : List (List α)) : List α :=
  lines.flatMap (· ++ [separator])

def openLine : List α → List (List α)
  | [] => []
  | rest => [rest]

@[simp] theorem openLine_nil : openLine ([] : List α) = [] := rfl

theorem openLine_of_ne_nil {rest : List α} (h : rest ≠ []) : openLine rest = [rest] := by
  cases rest with
  | nil => exact absurd rfl h
  | cons a rest => rfl

theorem notMem_of_mem_append_openLine {lines : List (List α)} {rest : List α}
    (hlines : ∀ line ∈ lines, separator ∉ line) (hrest : separator ∉ rest) :
    ∀ line ∈ lines ++ openLine rest, separator ∉ line := by
  intro line hline
  rcases List.mem_append.1 hline with hline | hline
  · exact hlines line hline
  · cases rest with
    | nil => cases hline
    | cons a rest => rwa [List.mem_singleton.1 hline]

end Sequences

section Pieces

variable {α : Type} [DecidableEq α] {separator : α}

theorem exists_lines (separator : α) (s : List α) : ∃ lines rest,
    (∀ line ∈ lines, separator ∉ line) ∧ separator ∉ rest ∧ s = ended separator lines ++ rest := by
  induction s with
  | nil => exact ⟨[], [], by simp, by simp, rfl⟩
  | cons a s ih =>
    obtain ⟨lines, rest, hlines, hrest, rfl⟩ := ih
    by_cases ha : a = separator
    · refine ⟨[] :: lines, rest, ?_, hrest, ?_⟩
      · simpa using hlines
      · simp [ended, ha]
    · cases lines with
      | nil =>
        refine ⟨[], a :: rest, by simp, ?_, rfl⟩
        simp [Ne.symm ha, hrest]
      | cons line lines =>
        obtain ⟨hline, hlines⟩ := List.forall_mem_cons.1 hlines
        refine ⟨(a :: line) :: lines, rest, ?_, hrest, ?_⟩
        · exact List.forall_mem_cons.2 ⟨by simp [Ne.symm ha, hline], hlines⟩
        · simp [ended]

theorem piecesFrom_of_notMem {rest : List α} (h : separator ∉ rest) (current : List α) :
    piecesFrom separator current rest = openLine (current.reverse ++ rest) := by
  induction rest generalizing current with
  | nil =>
    rcases List.eq_nil_or_concat current with rfl | ⟨front, a, rfl⟩
    · rfl
    · simp [piecesFrom, openLine]
  | cons a rest ih =>
    obtain ⟨ha, hrest⟩ := List.ne_and_not_mem_of_not_mem_cons h
    simp [piecesFrom, ha.symm, ih hrest]

theorem pieces_ended_append {lines : List (List α)} (hlines : ∀ line ∈ lines, separator ∉ line)
    {rest : List α} (hrest : separator ∉ rest) :
    pieces separator (ended separator lines ++ rest) =
      lines.map (· ++ [separator]) ++ openLine rest := by
  induction lines with
  | nil => simpa [pieces, ended] using piecesFrom_of_notMem hrest []
  | cons line lines ih =>
    obtain ⟨hline, hlines⟩ := List.forall_mem_cons.1 hlines
    have hcons : ended separator (line :: lines) ++ rest =
        line ++ separator :: (ended separator lines ++ rest) := by simp [ended]
    rw [hcons, pieces_append_cons hline, ih hlines]
    rfl

theorem dropEnd_of_notMem {a : α} {s : List α} (h : a ∉ s) : dropEnd a s = s :=
  if_neg fun hlast => h (List.mem_of_getLast? hlast)

@[simp] theorem dropEnd_concat (a : α) (s : List α) : dropEnd a (s ++ [a]) = s := by
  simp [dropEnd]

theorem dropEnd_eq_self_iff {a : α} {s : List α} : dropEnd a s = s ↔ s.getLast? ≠ some a := by
  rcases List.eq_nil_or_concat s with rfl | ⟨front, b, rfl⟩
  · simp [dropEnd]
  · by_cases hb : b = a <;> simp [dropEnd, hb]

end Pieces

/-! ### Lines of bytes -/

theorem byteLines_ended_append {lines : List (List UInt8)}
    (hlines : ∀ line ∈ lines, lineFeed ∉ line) {rest : List UInt8} (hrest : lineFeed ∉ rest) :
    byteLines (ended lineFeed lines ++ rest) =
      (lines ++ openLine rest).map fun line => Utf8.lenient (dropEnd carriageReturn line) := by
  have hlast : lineOfBytes rest = Utf8.lenient (dropEnd carriageReturn rest) := by
    rw [lineOfBytes, dropEnd_of_notMem hrest]
  rw [byteLines, pieces_ended_append hlines hrest, List.map_append, List.map_append, List.map_map]
  congr 1
  · simp [lineOfBytes, Function.comp_def]
  · cases rest with
    | nil => rfl
    | cons b rest => exact congrArg ([·]) hlast

/-! ### Lines of a text -/

theorem lines_ended_append {lines : List (List Char)} (hlines : ∀ line ∈ lines, '\n' ∉ line)
    {rest : List Char} (hrest : '\n' ∉ rest) :
    Text.lines (String.ofList (ended '\n' lines ++ rest)) =
      lines.map (fun line => String.ofList (dropEnd '\r' line)) ++
        (openLine rest).map String.ofList := by
  have hlast : lineOfPiece rest = rest := if_neg fun hend => hrest (List.mem_of_getLast? hend)
  rw [Text.lines, String.toList_ofList, pieces_ended_append hlines hrest, List.map_append,
    List.map_map]
  congr 1
  · simp [lineOfPiece, Function.comp_def]
  · cases rest with
    | nil => rfl
    | cons c rest => simp [openLine, hlast]

theorem lines_ended {lines : List (List Char)} (hlines : ∀ line ∈ lines, '\n' ∉ line) :
    Text.lines (String.ofList (ended '\n' lines)) =
      lines.map fun line => String.ofList (dropEnd '\r' line) := by
  have h := lines_ended_append hlines List.not_mem_nil
  rwa [List.append_nil, openLine_nil, List.map_nil, List.append_nil] at h

theorem lines_append {s : String} (h : ∀ c, s.toList.getLast? = some c → c = '\n') (t : String) :
    Text.lines (s ++ t) = Text.lines s ++ Text.lines t := by
  obtain ⟨front, last, hfront, hlast, hs⟩ := exists_lines '\n' s.toList
  obtain ⟨back, rest, hback, hrest, ht⟩ := exists_lines '\n' t.toList
  have hnil : last = [] := by
    rcases List.eq_nil_or_concat last with rfl | ⟨cs, c, rfl⟩
    · rfl
    · have hc : c = '\n' := h c (by simp [hs])
      simp [hc] at hlast
  subst hnil
  have hboth : ∀ line ∈ front ++ back, '\n' ∉ line := by
    simpa [or_imp, forall_and] using And.intro hfront hback
  have hst : s ++ t = String.ofList (ended '\n' (front ++ back) ++ rest) := by
    apply String.toList_injective
    simp [hs, ht, ended]
  rw [hst, lines_ended_append hboth hrest, List.map_append, List.append_assoc,
    ← lines_ended_append hback hrest, ← ht, String.ofList_toList, ← lines_ended hfront,
    ← List.append_nil (ended '\n' front), ← hs, String.ofList_toList]

/-- Lines that are written down one after the other are read back, if none ends in a carriage
return. -/
theorem lines_join {lines : List String} (hfeed : ∀ line ∈ lines, '\n' ∉ line.toList)
    (hreturn : ∀ line ∈ lines, line.toList.getLast? ≠ some '\r') :
    Text.lines (String.join (lines.map (· ++ "\n"))) = lines := by
  have htext : String.join (lines.map (· ++ "\n")) =
      String.ofList (ended '\n' (lines.map String.toList)) := by
    apply String.toList_injective
    simp [ended, List.flatMap_map]
  have hlines : ∀ line ∈ lines.map String.toList, '\n' ∉ line := by simpa using hfeed
  rw [htext, lines_ended hlines, List.map_map]
  conv => rhs; rw [← List.map_id lines]
  refine List.map_congr_left fun line hline => ?_
  simp [dropEnd_eq_self_iff.2 (hreturn line hline)]

/-! ### The last line -/

def endLastLine (s : String) : String :=
  if s.toList.getLast?.all (· = '\n') then s else s ++ "\n"

theorem endLastLine_ofList (lines : List (List Char)) {rest : List Char} (hrest : '\n' ∉ rest) :
    endLastLine (String.ofList (ended '\n' lines ++ rest)) =
      String.ofList (ended '\n' (lines ++ openLine rest)) := by
  rcases List.eq_nil_or_concat rest with rfl | ⟨front, last, rfl⟩
  · have hlast : (ended '\n' lines).getLast?.all (· = '\n') := by
      rcases List.eq_nil_or_concat lines with rfl | ⟨front, line, rfl⟩ <;> simp [ended]
    simp [endLastLine, hlast]
  · rw [List.concat_eq_append] at hrest ⊢
    have hlast : last ≠ '\n' := by
      rintro rfl
      exact hrest (by simp)
    rw [openLine_of_ne_nil (by simp)]
    apply String.toList_injective
    simp [endLastLine, ended, hlast]

/-- Ending the last line takes a carriage return from it, and does nothing else to the lines. -/
theorem lines_endLastLine_eq_iff (s : String) :
    lines (endLastLine s) = lines s ↔ s.toList.getLast? ≠ some '\r' := by
  obtain ⟨ls, rest, hlines, hrest, hs⟩ := exists_lines '\n' s.toList
  obtain rfl : s = String.ofList (ended '\n' ls ++ rest) := by rw [← hs, String.ofList_toList]
  rw [endLastLine_ofList ls hrest, lines_ended (notMem_of_mem_append_openLine hlines hrest),
    lines_ended_append hlines hrest, List.map_append, List.append_cancel_left_eq,
    String.toList_ofList]
  by_cases hnil : rest = []
  · subst hnil
    rcases List.eq_nil_or_concat ls with rfl | ⟨front, line, rfl⟩ <;> simp [ended]
  · rw [openLine_of_ne_nil hnil, List.getLast?_append_of_ne_nil _ hnil, ← dropEnd_eq_self_iff]
    simp [String.ofList_inj]

/-- A carriage return at the end of a text is part of its last line until that is ended. -/
theorem exists_lines_return {s : String} (h : s.toList.getLast? = some '\r') : ∃ front line,
    lines s = front ++ [line ++ "\r"] ∧ lines (endLastLine s) = front ++ [line] := by
  obtain ⟨ls, rest, hlines, hrest, hs⟩ := exists_lines '\n' s.toList
  obtain rfl : s = String.ofList (ended '\n' ls ++ rest) := by rw [← hs, String.ofList_toList]
  rcases List.eq_nil_or_concat rest with rfl | ⟨body, last, rfl⟩
  · rcases List.eq_nil_or_concat ls with rfl | ⟨front, line, rfl⟩ <;> simp [ended] at h
  · obtain rfl : last = '\r' := by simpa using h
    rw [List.concat_eq_append] at hrest ⊢
    rw [endLastLine_ofList ls hrest, lines_ended (notMem_of_mem_append_openLine hlines hrest),
      lines_ended_append hlines hrest, openLine_of_ne_nil (by simp)]
    refine ⟨ls.map fun line => String.ofList (dropEnd '\r' line), String.ofList body, ?_, ?_⟩
    · rw [List.map_singleton, String.ofList_append]
    · rw [List.map_append, List.map_singleton, dropEnd_concat]

/-! ### A text and its bytes -/

theorem utf8EncodeChar_of_ascii {c : Char} (h : c.toNat < 0x80) :
    String.utf8EncodeChar c = [UInt8.ofNat c.toNat] := by
  have hone : c.val.toNat ≤ 0x7F := Nat.le_of_lt_succ h
  rw [String.utf8EncodeChar, if_pos hone]
  rfl

theorem wide_of_mem_utf8EncodeChar {c : Char} (h : 0x80 ≤ c.toNat) {b : UInt8}
    (hb : b ∈ String.utf8EncodeChar c) : 0x80 ≤ b.toNat := by
  have hvalid : c.toNat < 0xD800 ∨ 0xDFFF < c.toNat ∧ c.toNat < 0x110000 := c.valid
  simp only [String.utf8EncodeChar, Char.toNat] at h hvalid hb
  generalize c.val.toNat = v at h hvalid hb
  split_ifs at hb
  · omega
  all_goals
    simp only [List.mem_cons, List.not_mem_nil, or_false] at hb
    rcases hb with rfl | rfl | rfl | rfl <;> rw [UInt8.toNat_ofNat'] <;> omega

theorem eq_ofNat_of_mem_utf8EncodeChar {c : Char} {b : UInt8} (hb : b.toNat < 0x80)
    (h : b ∈ String.utf8EncodeChar c) : c = Char.ofNat b.toNat := by
  have hascii : c.toNat < 0x80 := by
    by_contra hwide
    have := wide_of_mem_utf8EncodeChar (Nat.le_of_not_lt hwide) h
    omega
  rw [utf8EncodeChar_of_ascii hascii, List.mem_singleton] at h
  have hsize : c.toNat < UInt8.size := Nat.lt_trans hascii (by decide)
  rw [h, UInt8.toNat_ofNat_of_lt' hsize, Char.ofNat_toNat]

theorem lineFeed_notMem_flatMap {cs : List Char} (h : '\n' ∉ cs) :
    lineFeed ∉ cs.flatMap String.utf8EncodeChar := by
  intro hmem
  obtain ⟨c, hc, hbyte⟩ := List.mem_flatMap.1 hmem
  obtain rfl : c = '\n' := eq_ofNat_of_mem_utf8EncodeChar (by decide) hbyte
  exact h hc

theorem flatMap_utf8EncodeChar_ended (lines : List (List Char)) :
    (ended '\n' lines).flatMap String.utf8EncodeChar =
      ended lineFeed (lines.map (·.flatMap String.utf8EncodeChar)) := by
  have hfeed : String.utf8EncodeChar '\n' = [lineFeed] := rfl
  induction lines with
  | nil => rfl
  | cons line lines ih => simp_all [ended]

theorem openLine_flatMap (rest : List Char) :
    openLine (rest.flatMap String.utf8EncodeChar) =
      (openLine rest).map (·.flatMap String.utf8EncodeChar) := by
  cases rest with
  | nil => rfl
  | cons c rest =>
    rw [openLine_of_ne_nil]
    · rfl
    · simp [String.utf8EncodeChar_ne_nil]

theorem dropEnd_flatMap (cs : List Char) :
    dropEnd carriageReturn (cs.flatMap String.utf8EncodeChar) =
      (dropEnd '\r' cs).flatMap String.utf8EncodeChar := by
  have hreturn : String.utf8EncodeChar '\r' = [carriageReturn] := rfl
  rcases List.eq_nil_or_concat cs with rfl | ⟨front, c, rfl⟩
  · rfl
  · rw [List.concat_eq_append, List.flatMap_append, List.flatMap_singleton]
    by_cases hc : c = '\r'
    · rw [hc, hreturn, dropEnd_concat, dropEnd_concat]
    · have hchar : (front ++ [c]).getLast? ≠ some '\r' := by simpa using hc
      have hbyte : (front.flatMap String.utf8EncodeChar ++ String.utf8EncodeChar c).getLast? ≠
          some carriageReturn := by
        rw [List.getLast?_append_of_ne_nil _ String.utf8EncodeChar_ne_nil]
        intro hlast
        exact hc (eq_ofNat_of_mem_utf8EncodeChar (by decide) (List.mem_of_getLast? hlast))
      rw [dropEnd_eq_self_iff.2 hchar, dropEnd_eq_self_iff.2 hbyte]
      simp

/-- The lines of the bytes of a text are those of the text with its last line ended. -/
theorem byteLines_encode (s : String) : byteLines (Utf8.encode s) = lines (endLastLine s) := by
  obtain ⟨ls, rest, hlines, hrest, hs⟩ := exists_lines '\n' s.toList
  obtain rfl : s = String.ofList (ended '\n' ls ++ rest) := by rw [← hs, String.ofList_toList]
  have hbytes : ∀ line ∈ ls.map (·.flatMap String.utf8EncodeChar), lineFeed ∉ line := by
    simpa using fun line hline => lineFeed_notMem_flatMap (hlines line hline)
  rw [Utf8.encode_ofList, List.flatMap_append, flatMap_utf8EncodeChar_ended,
    byteLines_ended_append hbytes (lineFeed_notMem_flatMap hrest), openLine_flatMap,
    ← List.map_append, List.map_map]
  rw [endLastLine_ofList ls hrest, lines_ended (notMem_of_mem_append_openLine hlines hrest)]
  refine List.map_congr_left fun line _ => ?_
  rw [Function.comp_apply, dropEnd_flatMap, Utf8.lenient_flatMap_utf8EncodeChar]

/-! ### Any bytes, written down line by line -/

theorem mem_of_mem_dropEnd {α : Type} [DecidableEq α] {a b : α} {s : List α}
    (h : b ∈ dropEnd a s) : b ∈ s := by
  unfold dropEnd at h
  split_ifs at h
  · exact List.dropLast_subset s h
  · exact h

theorem exists_of_getLast?_dropEnd {α : Type} [DecidableEq α] {a : α} {s : List α}
    (h : (dropEnd a s).getLast? = some a) : ∃ front, s = front ++ [a, a] := by
  rcases List.eq_nil_or_concat s with rfl | ⟨front, b, rfl⟩
  · cases h
  · rw [List.concat_eq_append] at h ⊢
    by_cases hb : b = a
    · rw [hb, dropEnd_concat] at h
      obtain ⟨first, rfl⟩ := List.getLast?_eq_some_iff.1 h
      exact ⟨first, by simp [hb]⟩
    · have hkept : (front ++ [b]).getLast? ≠ some a := by simpa using hb
      rw [dropEnd_eq_self_iff.2 hkept] at h
      exact absurd h hkept

theorem lineFeed_notMem_of_mem_byteLines {bytes : List UInt8} {line : String}
    (h : line ∈ byteLines bytes) : '\n' ∉ line.toList := by
  obtain ⟨ls, rest, hlines, hrest, rfl⟩ := exists_lines lineFeed bytes
  rw [byteLines_ended_append hlines hrest] at h
  obtain ⟨piece, hpiece, rfl⟩ := List.mem_map.1 h
  intro hmem
  have hfeed : lineFeed ∈ dropEnd carriageReturn piece :=
    Utf8.mem_of_mem_lenient (by decide) (by decide) hmem
  exact notMem_of_mem_append_openLine hlines hrest piece hpiece (mem_of_mem_dropEnd hfeed)

theorem infix_ended {α : Type} {separator : α} {lines : List (List α)} {line : List α}
    (h : line ∈ lines) : line ++ [separator] <:+: ended separator lines := by
  obtain ⟨front, back, rfl⟩ := List.append_of_mem h
  exact ⟨ended separator front, ended separator back, by simp [ended]⟩

/-- Reading a line drops one carriage return, so another one is left of two. -/
theorem getLast?_ne_of_mem_byteLines {bytes : List UInt8}
    (hline : ¬[carriageReturn, carriageReturn, lineFeed] <:+: bytes)
    (hlast : ¬[carriageReturn, carriageReturn] <:+ bytes) {line : String}
    (h : line ∈ byteLines bytes) : line.toList.getLast? ≠ some '\r' := by
  obtain ⟨ls, rest, hlines, hrest, rfl⟩ := exists_lines lineFeed bytes
  rw [byteLines_ended_append hlines hrest] at h
  obtain ⟨piece, hpiece, rfl⟩ := List.mem_map.1 h
  intro hreturn
  have hbyte : (dropEnd carriageReturn piece).getLast? = some carriageReturn :=
    Utf8.getLast?_of_getLast?_lenient (by decide) (by decide) hreturn
  obtain ⟨front, rfl⟩ := exists_of_getLast?_dropEnd hbyte
  rcases List.mem_append.1 hpiece with hended | hopen
  · have hend : [carriageReturn, carriageReturn, lineFeed] <:+:
        front ++ [carriageReturn, carriageReturn] ++ [lineFeed] := ⟨front, [], by simp⟩
    exact hline ((hend.trans (infix_ended hended)).trans (List.prefix_append _ _).isInfix)
  · -- It is the open line, with which the bytes end.
    refine hlast (List.suffix_append_of_suffix ?_)
    cases rest with
    | nil => cases hopen
    | cons b rest => exact ⟨front, List.mem_singleton.1 hopen⟩

/-- The lines of bytes are read back after they were written down. -/
theorem lines_join_byteLines {bytes : List UInt8}
    (hline : ¬[carriageReturn, carriageReturn, lineFeed] <:+: bytes)
    (hlast : ¬[carriageReturn, carriageReturn] <:+ bytes) :
    lines (String.join ((byteLines bytes).map (· ++ "\n"))) = byteLines bytes := by
  apply lines_join
  · exact fun line => lineFeed_notMem_of_mem_byteLines
  · exact fun line => getLast?_ne_of_mem_byteLines hline hlast

end SnippetLens.Text
