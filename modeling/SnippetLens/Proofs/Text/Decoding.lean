import SnippetLens.Proofs.Text.ByteOrder

/-!
What the decoder makes of bytes.

`decodeFrom` tells the pieces from any state on, so that a sequence can be read from the middle. The
bytes of a character lead from between characters to between characters and give that character;
hence a text is read back from its bytes.

Of any other bytes it is only said what becomes of the ASCII ones among them. Such a byte ends
whatever was begun before it and is a character of its own, and nothing else comes out as an ASCII
character: the bits of a longer character are always too great. This needs that a decoding stands
at a state that it can reach, which is what `Proper` says and what every byte keeps.
-/

namespace SnippetLens.Text.Utf8

/-! ### The pieces from a state on -/

def decodeFrom : State → List UInt8 → List Piece
  | s, [] => finish s
  | s, b :: bs => (step s b).2 ++ decodeFrom (step s b).1 bs

theorem decode_eq_decodeFrom (bs : List UInt8) : decode bs = decodeFrom none bs := by
  have hfold : ∀ (s : State) (pieces : List Piece),
      ((finish (bs.foldl feed (s, pieces)).1).reverse ++
        (bs.foldl feed (s, pieces)).2).reverse = pieces.reverse ++ decodeFrom s bs := by
    induction bs with
    | nil => simp [decodeFrom]
    | cons b bs ih =>
      intro s pieces
      simpa [feed, decodeFrom] using ih (step s b).1 ((step s b).2.reverse ++ pieces)
  simpa [decode] using hfold none []

/-! ### The bytes of a character

The first byte tells how many follow, and what the second may be. -/

theorem first_of_one : ∀ n < 0x80, first (UInt8.ofNat n) = (none, [some (Char.ofNat n)]) := by
  decide

theorem first_of_two : ∀ n < 32, 2 ≤ n →
    first (UInt8.ofNat (n + 192)) = (some ⟨n, 1, 0x80, 0xBF⟩, []) := by
  decide

theorem first_of_three (n : Nat) (h : n < 16) : ∃ low high,
    first (UInt8.ofNat (n + 224)) = (some ⟨n, 2, low, high⟩, []) ∧
      low.toNat ≤ 0xA0 ∧ (n ≠ 0 → low.toNat ≤ 0x80) ∧
      0x9F ≤ high.toNat ∧ (n ≠ 13 → 0xBF ≤ high.toNat) := by
  have hfirst : ∀ n < 16, first (UInt8.ofNat (n + 224)) =
      (some ⟨n, 2, if n = 0 then 0xA0 else 0x80, if n = 13 then 0x9F else 0xBF⟩, []) := by decide
  refine ⟨_, _, hfirst n h, ?_⟩
  split_ifs <;> simp_all

theorem first_of_four (n : Nat) (h : n < 5) : ∃ low high,
    first (UInt8.ofNat (n + 240)) = (some ⟨n, 3, low, high⟩, []) ∧
      low.toNat ≤ 0x90 ∧ (n ≠ 0 → low.toNat ≤ 0x80) ∧
      0x8F ≤ high.toNat ∧ (n ≠ 4 → 0xBF ≤ high.toNat) := by
  have hfirst : ∀ n < 5, first (UInt8.ofNat (n + 240)) =
      (some ⟨n, 3, if n = 0 then 0x90 else 0x80, if n = 4 then 0x8F else 0xBF⟩, []) := by decide
  refine ⟨_, _, hfirst n h, ?_⟩
  split_ifs <;> simp_all

theorem step_of_accepts {p : Partial} {n : Nat} (hn : n < 64) (hlow : p.low.toNat ≤ n + 128)
    (hhigh : n + 128 ≤ p.high.toNat) :
    step (some p) (UInt8.ofNat (n + 128)) =
      if p.owed ≤ 1 then (none, [some (Char.ofNat (p.bits * 64 + n))])
      else (some ⟨p.bits * 64 + n, p.owed - 1, 0x80, 0xBF⟩, []) := by
  have hbyte : (UInt8.ofNat (n + 128)).toNat = n + 128 := by
    rw [UInt8.toNat_ofNat']
    omega
  have haccepts : p.accepts (UInt8.ofNat (n + 128)) = true := by
    simp only [Partial.accepts, Bool.and_eq_true, decide_eq_true_eq, UInt8.le_iff_toNat_le, hbyte]
    exact ⟨hlow, hhigh⟩
  have hbits : n + 128 - 0x80 = n := by omega
  simp only [step, haccepts, if_true, hbyte, hbits]

theorem decodeFrom_of_accepts {bits owed n : Nat} {low high : UInt8} (hn : n < 64)
    (hlow : low.toNat ≤ n + 128) (hhigh : n + 128 ≤ high.toNat) (bs : List UInt8) :
    decodeFrom (some ⟨bits, owed + 2, low, high⟩) (UInt8.ofNat (n + 128) :: bs) =
      decodeFrom (some ⟨bits * 64 + n, owed + 1, 0x80, 0xBF⟩) bs := by
  rw [decodeFrom, step_of_accepts hn hlow hhigh]
  simp

theorem decodeFrom_of_last {bits n : Nat} (hn : n < 64) (bs : List UInt8) :
    decodeFrom (some ⟨bits, 1, 0x80, 0xBF⟩) (UInt8.ofNat (n + 128) :: bs) =
      some (Char.ofNat (bits * 64 + n)) :: decodeFrom none bs := by
  have hlow : (0x80 : UInt8).toNat ≤ n + 128 := by simp
  have hhigh : n + 128 ≤ (0xBF : UInt8).toNat := by simp; omega
  rw [decodeFrom, step_of_accepts hn hlow hhigh]
  rfl

theorem decodeFrom_utf8EncodeChar (c : Char) (bs : List UInt8) :
    decodeFrom none (String.utf8EncodeChar c ++ bs) = some c :: decodeFrom none bs := by
  have hvalid : c.toNat < 0xD800 ∨ 0xDFFF < c.toNat ∧ c.toNat < 0x110000 := c.valid
  have hc : Char.ofNat c.toNat = c := Char.ofNat_toNat c
  simp only [String.utf8EncodeChar, Char.toNat] at hvalid hc ⊢
  generalize c.val.toNat = v at hvalid hc ⊢
  -- By the number of bytes; each byte carries six bits of the character behind those of the first.
  split_ifs with hone htwo hthree
  · rw [List.singleton_append, decodeFrom, step, first_of_one v (by omega), hc]
    rfl
  · have hbits : v / 64 % 32 * 64 + v % 64 = v := by omega
    rw [List.cons_append, decodeFrom, step, first_of_two _ (by omega) (by omega), List.nil_append]
    rw [List.singleton_append, decodeFrom_of_last (by omega), hbits, hc]
  · have hbits : (v / 4096 % 16 * 64 + v / 64 % 64) * 64 + v % 64 = v := by omega
    -- The second byte is in bounds since `v` is not written shorter and is no surrogate.
    obtain ⟨low, high, hfirst, hlow⟩ := first_of_three (v / 4096 % 16) (by omega)
    rw [List.cons_append, decodeFrom, step, hfirst, List.nil_append]
    rw [List.cons_append, decodeFrom_of_accepts (by omega) (by omega) (by omega)]
    rw [List.singleton_append, decodeFrom_of_last (by omega), hbits, hc]
  · have hbits : ((v / 262144 % 8 * 64 + v / 4096 % 64) * 64 + v / 64 % 64) * 64 + v % 64 = v := by
      omega
    obtain ⟨low, high, hfirst, hlow⟩ := first_of_four (v / 262144 % 8) (by omega)
    rw [List.cons_append, decodeFrom, step, hfirst, List.nil_append]
    rw [List.cons_append, decodeFrom_of_accepts (by omega) (by omega) (by omega)]
    rw [List.cons_append, decodeFrom_of_accepts (by omega) (by simp) (by simp; omega)]
    rw [List.singleton_append, decodeFrom_of_last (by omega), hbits, hc]

theorem decode_flatMap_utf8EncodeChar (cs : List Char) :
    decode (cs.flatMap String.utf8EncodeChar) = cs.map some := by
  rw [decode_eq_decodeFrom]
  induction cs with
  | nil => rfl
  | cons c cs ih => rw [List.flatMap_cons, decodeFrom_utf8EncodeChar, ih, List.map_cons]

theorem lenient_flatMap_utf8EncodeChar (cs : List Char) :
    lenient (cs.flatMap String.utf8EncodeChar) = String.ofList cs := by
  rw [lenient, decode_flatMap_utf8EncodeChar, List.map_map]
  have hid : (fun piece : Piece => piece.getD replacement) ∘ some = id := rfl
  rw [hid, List.map_id]

theorem strict?_flatMap_utf8EncodeChar (cs : List Char) :
    strict? (cs.flatMap String.utf8EncodeChar) = some (String.ofList cs) := by
  have hall : (cs.map some).mapM id = some cs := by
    rw [List.mapM_map]
    exact (List.mapM_pure (f := id)).trans (congrArg some (List.map_id cs))
  rw [strict?, decode_flatMap_utf8EncodeChar, hall, Option.map_some]

/-! ### States that a decoding can reach -/

/-- Whether neither the next byte of a character that was begun nor the character itself can be
ASCII. -/
def Partial.Proper (p : Partial) : Prop :=
  0x80 ≤ p.low.toNat ∧ 2 ≤ p.bits * 64 + (p.low.toNat - 0x80) ∧
    (p.owed ≤ 1 → 0x80 ≤ p.bits * 64 + (p.low.toNat - 0x80))

instance (p : Partial) : Decidable p.Proper :=
  inferInstanceAs (Decidable (_ ∧ _ ∧ (_ → _)))

def State.Proper (s : State) : Prop := ∀ p ∈ s, p.Proper

instance (s : State) : Decidable s.Proper :=
  inferInstanceAs (Decidable (∀ p ∈ s, p.Proper))

theorem proper_none : State.Proper none := by
  rintro p ⟨⟩

/-- Whether a piece is a fault or a character beyond ASCII. A number that is no character stands for
the character zero, so that one is let in. -/
def Piece.Wide (piece : Piece) : Prop :=
  ∀ c ∈ piece, c = '\x00' ∨ 0x80 ≤ c.toNat

instance (piece : Piece) : Decidable piece.Wide :=
  inferInstanceAs (Decidable (∀ c ∈ piece, c = '\x00' ∨ 0x80 ≤ c.toNat))

theorem wide_none : Piece.Wide none := by
  rintro c ⟨⟩

theorem wide_ofNat {n : Nat} (h : 0x80 ≤ n) : Piece.Wide (some (Char.ofNat n)) := by
  rintro _ ⟨⟩
  by_cases hvalid : n.isValidChar
  · right
    rw [Char.ofNat, dif_pos hvalid]
    exact h
  · left
    rw [Char.ofNat, dif_neg hvalid]
    rfl

theorem wide_of_mem_finish {s : State} {piece : Piece} (h : piece ∈ finish s) : piece.Wide := by
  cases s with
  | none => cases h
  | some p =>
    obtain rfl := List.mem_singleton.1 h
    exact wide_none

/-- Where any continuation byte may come next, it is enough that the bits so far are great. -/
theorem Partial.proper_of_bits {bits owed : Nat} {high : UInt8} (hpos : 1 ≤ bits)
    (hlast : owed ≤ 1 → 2 ≤ bits) : Partial.Proper ⟨bits, owed, 0x80, high⟩ := by
  have hlow : (0x80 : UInt8).toNat = 0x80 := rfl
  refine ⟨Nat.le_of_eq hlow.symm, ?_, fun howed => ?_⟩
  · simp only [hlow]
    omega
  · have hbits := hlast howed
    simp only [hlow]
    omega

/-- Whether a state can be reached, and no piece that comes with it is ASCII. -/
def Widens (r : State × List Piece) : Prop :=
  r.1.Proper ∧ ∀ piece ∈ r.2, Piece.Wide piece

theorem widens_fault : Widens (none, [none]) :=
  ⟨proper_none, List.forall_mem_singleton.2 wide_none⟩

theorem Partial.Proper.widens {p : Partial} (h : p.Proper) : Widens (some p, []) := by
  refine ⟨?_, nofun⟩
  rintro _ ⟨⟩
  exact h

theorem first_of_wide {b : UInt8} (h : 0x80 ≤ b.toNat) : Widens (first b) := by
  unfold first
  -- In the order of the table; where the second byte is bounded, the bound makes up for the bits.
  split_ifs with hascii htrail htwo hzero hsurrogates hthree hfirst hfour hlast
  · exact absurd hascii (UInt8.not_lt.2 h)
  · exact widens_fault
  · have hbits : 0xC2 ≤ b.toNat := UInt8.not_lt.1 htrail
    exact (Partial.proper_of_bits (by omega) (by omega)).widens
  · exact Partial.Proper.widens (by decide)
  · exact Partial.Proper.widens (by decide)
  · have hbits : 0xE0 ≤ b.toNat := UInt8.not_lt.1 htwo
    have hmore : b.toNat ≠ 0xE0 := fun heq => hzero (UInt8.toNat_inj.1 heq)
    exact (Partial.proper_of_bits (by omega) (by omega)).widens
  · exact Partial.Proper.widens (by decide)
  · have hbits : 0xF0 ≤ b.toNat := UInt8.not_lt.1 hthree
    have hmore : b.toNat ≠ 0xF0 := fun heq => hfirst (UInt8.toNat_inj.1 heq)
    exact (Partial.proper_of_bits (by omega) (by omega)).widens
  · exact Partial.Proper.widens (by decide)
  · exact widens_fault

/-- An ASCII byte ends what was begun, and is a character of its own. -/
theorem step_of_ascii {s : State} (hs : s.Proper) {b : UInt8} (hb : b.toNat < 0x80) :
    step s b = (none, finish s ++ [some (Char.ofNat b.toNat)]) := by
  have hfirst : first b = (none, [some (Char.ofNat b.toNat)]) := by
    simpa using first_of_one b.toNat hb
  cases s with
  | none => simpa [step, finish] using hfirst
  | some p =>
    have hlow := (hs p rfl).1
    have hrefused : p.accepts b = false := by
      simp only [Partial.accepts, Bool.and_eq_false_iff, decide_eq_false_iff_not,
        UInt8.le_iff_toNat_le]
      omega
    simp [step, hrefused, finish, hfirst]

theorem step_of_wide {s : State} (hs : s.Proper) {b : UInt8} (hb : 0x80 ≤ b.toNat) :
    Widens (step s b) := by
  obtain ⟨hstate, hpieces⟩ := first_of_wide hb
  cases s with
  | none => exact ⟨hstate, hpieces⟩
  | some p =>
    obtain ⟨hlow, hbits, hlast⟩ := hs p rfl
    by_cases haccepts : p.accepts b = true
    · have hle : p.low.toNat ≤ b.toNat := by
        simp only [Partial.accepts, Bool.and_eq_true, decide_eq_true_eq,
          UInt8.le_iff_toNat_le] at haccepts
        exact haccepts.1
      by_cases howed : p.owed ≤ 1
      · have hgreat := hlast howed
        have hwide := wide_ofNat (n := p.bits * 64 + (b.toNat - 0x80)) (by omega)
        rw [step, if_pos haccepts, if_pos howed]
        exact ⟨proper_none, List.forall_mem_singleton.2 hwide⟩
      · rw [step, if_pos haccepts, if_neg howed]
        exact (Partial.proper_of_bits (by omega) (by omega)).widens
    · rw [step, if_neg haccepts]
      exact ⟨hstate, List.forall_mem_cons.2 ⟨wide_none, hpieces⟩⟩

theorem proper_step {s : State} (hs : s.Proper) (b : UInt8) : (step s b).1.Proper := by
  rcases Nat.lt_or_ge b.toNat 0x80 with hb | hb
  · rw [step_of_ascii hs hb]
    exact proper_none
  · exact (step_of_wide hs hb).1

/-! ### ASCII characters among other bytes -/

theorem wide_or_ascii_of_mem_decodeFrom {s : State} (hs : s.Proper) {bs : List UInt8}
    {piece : Piece} (h : piece ∈ decodeFrom s bs) :
    piece.Wide ∨ ∃ b ∈ bs, b.toNat < 0x80 ∧ piece = some (Char.ofNat b.toNat) := by
  induction bs generalizing s with
  | nil => exact .inl (wide_of_mem_finish h)
  | cons b bs ih =>
    rcases List.mem_append.1 h with hout | hrest
    · rcases Nat.lt_or_ge b.toNat 0x80 with hb | hb
      · rw [step_of_ascii hs hb] at hout
        rcases List.mem_append.1 hout with hfault | hchar
        · exact .inl (wide_of_mem_finish hfault)
        · exact .inr ⟨b, List.mem_cons_self, hb, List.mem_singleton.1 hchar⟩
      · exact .inl ((step_of_wide hs hb).2 piece hout)
    · refine (ih (proper_step hs b) hrest).imp_right ?_
      rintro ⟨a, ha, hascii⟩
      exact ⟨a, List.mem_cons_of_mem b ha, hascii⟩

theorem step_ne (s : State) (b : UInt8) : step s b ≠ (none, []) := by
  cases s with
  | none =>
    simp only [step, first]
    split_ifs <;> simp
  | some p =>
    simp only [step]
    split_ifs <;> simp

theorem eq_nil_of_decodeFrom_eq_nil {s : State} {bs : List UInt8} (h : decodeFrom s bs = []) :
    s = none ∧ bs = [] := by
  induction bs generalizing s with
  | nil => cases s <;> simp_all [decodeFrom, finish]
  | cons b bs ih =>
    obtain ⟨hout, hrest⟩ := List.append_eq_nil_iff.1 h
    exact absurd (Prod.ext (ih hrest).1 hout) (step_ne s b)

theorem wide_or_ascii_of_getLast?_decodeFrom {s : State} (hs : s.Proper) (front : List UInt8)
    (b : UInt8) {piece : Piece} (h : (decodeFrom s (front ++ [b])).getLast? = some piece) :
    piece.Wide ∨ b.toNat < 0x80 ∧ piece = some (Char.ofNat b.toNat) := by
  induction front generalizing s with
  | nil =>
    rcases Nat.lt_or_ge b.toNat 0x80 with hb | hb
    · right
      simp only [List.nil_append, decodeFrom, step_of_ascii hs hb, finish, List.append_nil,
        List.getLast?_append, List.getLast?_singleton, Option.some_or, Option.some.injEq] at h
      exact ⟨hb, h.symm⟩
    · left
      rcases List.mem_append.1 (List.mem_of_getLast? h) with hout | hfinish
      · exact (step_of_wide hs hb).2 piece hout
      · exact wide_of_mem_finish hfinish
  | cons a front ih =>
    have hrest : decodeFrom (step s a).1 (front ++ [b]) ≠ [] := fun hnil => by
      simpa using (eq_nil_of_decodeFrom_eq_nil hnil).2
    rw [List.cons_append, decodeFrom, List.getLast?_append_of_ne_nil _ hrest] at h
    exact ih (proper_step hs a) h

/-! ### ASCII characters of a text -/

section Ascii

variable {c : Char} (hascii : c.toNat < 0x80) (hzero : c ≠ '\x00')

include hascii hzero in
theorem not_wide_of_getD {piece : Piece} (h : piece.getD replacement = c) : ¬piece.Wide := by
  intro hwide
  cases piece with
  | none =>
    obtain rfl : replacement = c := h
    exact absurd hascii (by decide)
  | some d =>
    obtain rfl : d = c := h
    rcases hwide d rfl with hd | hd
    · exact hzero hd
    · omega

theorem ofNat_toNat_ofNat : ∀ n < 0x80, UInt8.ofNat (Char.ofNat n).toNat = UInt8.ofNat n := by
  decide

include hascii hzero in
theorem mem_of_mem_lenient {bs : List UInt8} (h : c ∈ (lenient bs).toList) :
    UInt8.ofNat c.toNat ∈ bs := by
  rw [lenient, decode_eq_decodeFrom, String.toList_ofList] at h
  obtain ⟨piece, hpiece, hc⟩ := List.mem_map.1 h
  rcases wide_or_ascii_of_mem_decodeFrom proper_none hpiece with hwide | ⟨b, hb, hlt, rfl⟩
  · exact absurd hwide (not_wide_of_getD hascii hzero hc)
  · obtain rfl : Char.ofNat b.toNat = c := hc
    rw [ofNat_toNat_ofNat b.toNat hlt]
    simpa using hb

include hascii hzero in
theorem getLast?_of_getLast?_lenient {bs : List UInt8} (h : (lenient bs).toList.getLast? = some c) :
    bs.getLast? = some (UInt8.ofNat c.toNat) := by
  rw [lenient, decode_eq_decodeFrom, String.toList_ofList, List.getLast?_map] at h
  obtain ⟨piece, hpiece, hc⟩ := Option.map_eq_some_iff.1 h
  rcases List.eq_nil_or_concat bs with rfl | ⟨front, b, rfl⟩
  · cases hpiece
  · rw [List.concat_eq_append] at hpiece ⊢
    rcases wide_or_ascii_of_getLast?_decodeFrom proper_none front b hpiece with hwide | ⟨hlt, rfl⟩
    · exact absurd hwide (not_wide_of_getD hascii hzero hc)
    · obtain rfl : Char.ofNat b.toNat = c := hc
      rw [ofNat_toNat_ofNat b.toNat hlt]
      simp

end Ascii

end SnippetLens.Text.Utf8
