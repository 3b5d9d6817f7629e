import Mathlib.Data.List.Basic
import SnippetLens.Text.Utf8

/-!
The order of texts is the order of their bytes.

Texts are compared by their characters and file names by their bytes. In UTF-8 a greater character
has a greater encoding: a longer one starts with a greater byte, and among encodings of one length
the bits of the character stand from the first byte to the last.
-/

namespace SnippetLens.Text.Utf8

/-! ### The bytes of a text -/

theorem toList_loop_eq (bytes : ByteArray) (i : Nat) (front : List UInt8) :
    ByteArray.toList.loop bytes i front = front.reverse ++ bytes.data.toList.drop i := by
  fun_induction ByteArray.toList.loop bytes i front with
  | case1 i front hi ih =>
    have hlength : i < bytes.data.toList.length := by simpa using hi
    rw [ih, List.drop_eq_getElem_cons (l := bytes.data.toList) hlength]
    simp [ByteArray.get!, hi]
  | case2 i front hi =>
    rw [List.drop_eq_nil_of_le (by simpa using Nat.le_of_not_lt hi)]
    simp

theorem encode_ofList (cs : List Char) :
    encode (String.ofList cs) = cs.flatMap String.utf8EncodeChar := by
  have hdata : (String.ofList cs).toUTF8.data.toList = cs.flatMap String.utf8EncodeChar := by
    simp [String.toUTF8, List.utf8Encode]
  simpa [encode, ByteArray.toList, toList_loop_eq] using hdata

/-! ### The order of bytes -/

theorem cons_lt_cons_of_lt {m n : Nat} (hlt : m < n) (hn : n < 256) (x y : List UInt8) :
    UInt8.ofNat m :: x < UInt8.ofNat n :: y :=
  List.cons_lt_cons_iff.2 (.inl ((UInt8.ofNat_lt_iff_lt (Nat.lt_trans hlt hn) hn).2 hlt))

theorem cons_lt_cons_of_le {m n : Nat} (hle : m ≤ n) (hn : n < 256) {x y : List UInt8}
    (h : m = n → x < y) : UInt8.ofNat m :: x < UInt8.ofNat n :: y := by
  rcases Nat.lt_or_eq_of_le hle with hlt | rfl
  · exact cons_lt_cons_of_lt hlt hn x y
  · exact List.cons_lt_cons_iff.2 (.inr ⟨rfl, h rfl⟩)

/-- A smaller character has a smaller encoding, which is no beginning of the greater one. -/
theorem utf8EncodeChar_append_lt {c d : Char} (h : c < d) (x y : List UInt8) :
    String.utf8EncodeChar c ++ x < String.utf8EncodeChar d ++ y := by
  have hlt : c.val.toNat < d.val.toNat := h
  have hmax : d.val.toNat < 0x110000 := by
    have hvalid := d.valid
    unfold UInt32.isValidChar Nat.isValidChar at hvalid
    omega
  simp only [String.utf8EncodeChar]
  generalize c.val.toNat = v at hlt ⊢
  generalize d.val.toNat = w at hlt hmax ⊢
  split_ifs <;> simp only [List.cons_append, List.nil_append]
  -- A smaller character has no longer encoding, and a shorter one starts with a smaller byte.
  all_goals try omega
  all_goals try (apply cons_lt_cons_of_lt <;> omega)
  · refine cons_lt_cons_of_le (by omega) (by omega) fun hfirst => ?_
    exact cons_lt_cons_of_lt (by omega) (by omega) x y
  · refine cons_lt_cons_of_le (by omega) (by omega) fun hfirst => ?_
    refine cons_lt_cons_of_le (by omega) (by omega) fun hsecond => ?_
    exact cons_lt_cons_of_lt (by omega) (by omega) x y
  · refine cons_lt_cons_of_le (by omega) (by omega) fun hfirst => ?_
    refine cons_lt_cons_of_le (by omega) (by omega) fun hsecond => ?_
    refine cons_lt_cons_of_le (by omega) (by omega) fun hthird => ?_
    exact cons_lt_cons_of_lt (by omega) (by omega) x y

/-! ### The order of texts -/

theorem flatMap_utf8EncodeChar_lt {cs ds : List Char} (h : cs < ds) :
    cs.flatMap String.utf8EncodeChar < ds.flatMap String.utf8EncodeChar := by
  induction cs generalizing ds with
  | nil =>
    cases ds with
    | nil => exact absurd h (List.lt_irrefl [])
    | cons d ds =>
      obtain ⟨byte, bytes, hd⟩ :=
        List.exists_cons_of_ne_nil (String.utf8EncodeChar_ne_nil (c := d))
      simp [hd]
  | cons c cs ih =>
    cases ds with
    | nil => exact absurd h (List.not_lt_nil _)
    | cons d ds =>
      rw [List.flatMap_cons, List.flatMap_cons]
      rcases List.cons_lt_cons_iff.1 h with hcd | ⟨rfl, hrest⟩
      · exact utf8EncodeChar_append_lt hcd _ _
      · exact List.append_left_lt (ih hrest)

theorem encode_lt_encode {s t : String} (h : s < t) : encode s < encode t := by
  have hbytes := flatMap_utf8EncodeChar_lt (String.lt_iff.1 h)
  rwa [← encode_ofList, ← encode_ofList, String.ofList_toList, String.ofList_toList] at hbytes

end SnippetLens.Text.Utf8
