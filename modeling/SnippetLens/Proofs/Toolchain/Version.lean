import Mathlib.Data.List.Basic
import SnippetLens.Toolchain.Version

/-!
Versions are ordered by the numbers that their names are made of.

A name is numbers parted by points and, for a pre-release, a hyphen and parts of letters and a
number, with points or hyphens between them. No letter and no digit is a separator, so a name is
split where it was joined, each part gives the number that was written into it, and the key of the
name holds these numbers. Keys compare as a lexicographic product, which is a linear order.
-/

namespace SnippetLens.Toolchain

/-! ### The order of keys -/

namespace VersionKey

theorem compareNumbers_eq_compareLex (as bs : List Nat) :
    compareNumbers as bs = List.compareLex compare as bs := by
  fun_induction compareNumbers as bs with
  | case1 => rfl
  | case2 => rfl
  | case3 => rfl
  | case4 a as b bs ih => rw [List.compareLex_cons_cons, ih]

theorem compareTo_eq_compareLex :
    compareTo = compareLex (compareOn fun key => key.release)
      (compareLex (compareOn fun key => key.isRelease.toNat)
        (compareOn fun key => key.preRelease)) := by
  funext a b
  rw [compareTo, compareNumbers_eq_compareLex, compareNumbers_eq_compareLex]
  rfl

instance : Std.TransCmp compareTo := by
  rw [compareTo_eq_compareLex]
  infer_instance

instance : Std.LawfulEqCmp compareTo where
  eq_of_compare {a b} h := by
    simp only [compareTo_eq_compareLex, compareLex_eq_eq, compareOn,
      Std.LawfulEqCmp.compare_eq_iff_eq] at h
    obtain ⟨hrelease, hstage, hpre⟩ := h
    have hstage : a.isRelease = b.isRelease := by
      cases ha : a.isRelease <;> cases hb : b.isRelease <;> simp [ha, hb] at hstage ⊢
    cases a
    cases b
    simp_all

end VersionKey

/-! ### Splitting -/

section Splitting

variable {separates : Char → Bool}

theorem splitAt_of_none {part : List Char} (h : ∀ c ∈ part, separates c = false) :
    splitAt separates part = [part] := by
  induction part with
  | nil => rfl
  | cons c r ih =>
    have hr := ih fun d hd => h d (List.mem_cons_of_mem c hd)
    simp [splitAt, h c (by simp), hr]

theorem splitAt_append_cons {part : List Char} (h : ∀ c ∈ part, separates c = false) {c : Char}
    (hc : separates c = true) (rest : List Char) :
    splitAt separates (part ++ c :: rest) = part :: splitAt separates rest := by
  induction part with
  | nil => simp [splitAt, hc]
  | cons d r ih =>
    have hr := ih fun e he => h e (List.mem_cons_of_mem d he)
    simp [splitAt, h d (by simp), hr]

theorem splitAt_joined {β : Type} {mark : β → Char} {chars : β → List Char}
    (hmark : ∀ part, separates (mark part) = true)
    (hchars : ∀ part, ∀ c ∈ chars part, separates c = false) {first : List Char}
    (hfirst : ∀ c ∈ first, separates c = false) (others : List β) :
    splitAt separates (first ++ others.flatMap fun part => mark part :: chars part) =
      first :: others.map chars := by
  induction others generalizing first with
  | nil => simpa using splitAt_of_none hfirst
  | cons next others ih =>
    rw [List.flatMap_cons, List.cons_append, splitAt_append_cons hfirst (hmark next),
      ih (hchars next), List.map_cons]

end Splitting

/-! ### Names of versions -/

/-- A number of 64 bits in decimal, perhaps with zeros in front. -/
structure Numeral where
  zeros : Nat
  value : Nat
  value_lt : value < UInt64.size

/-- A part of a pre-release: letters and a number, as in `rc1`. -/
structure PreReleasePart where
  letters : List Char
  letters_alpha : ∀ c ∈ letters, c.isAlpha = true
  number : Numeral

inductive Separator where
  | point
  | hyphen

/-- A pre-release: its first part, and each other part with the separator in front of it. -/
structure PreRelease where
  first : PreReleasePart
  others : List (Separator × PreReleasePart)

/-- The name of a version: the numbers of its release, and its pre-release if it is one. -/
structure VersionName where
  first : Numeral
  others : List Numeral
  preRelease : Option PreRelease

namespace Numeral

def chars (n : Numeral) : List Char :=
  List.replicate n.zeros '0' ++ Nat.toDigits 10 n.value

theorem isDigit_of_mem_chars {n : Numeral} {c : Char} (h : c ∈ n.chars) : c.isDigit = true := by
  rcases List.mem_append.1 h with h | h
  · rw [List.eq_of_mem_replicate h]
    rfl
  · exact Nat.isDigit_of_mem_toDigits (by decide) (by decide) h

end Numeral

theorem ne_of_isAlphanum {c : Char} (h : c.isAlphanum = true) : c ≠ '.' ∧ c ≠ '-' := by
  constructor <;> rintro rfl <;> exact absurd h (by decide)

theorem isDigit_of_isAlpha {c : Char} (h : c.isAlpha = true) : c.isDigit = false := by
  have hletter : 'A'.toNat ≤ c.toNat := by
    rcases Bool.or_eq_true_iff.1 h with hupper | hlower
    · exact (of_decide_eq_true hupper).1
    · have hlower : 'a'.toNat ≤ c.toNat := of_decide_eq_true (Bool.and_eq_true_iff.1 hlower).1
      exact Nat.le_trans (by decide) hlower
  rw [Bool.eq_false_iff, Ne, Char.isDigit_iff_toNat]
  rintro ⟨-, hdigit⟩
  exact absurd (Nat.le_trans hletter hdigit) (by decide)

theorem partNumber_append {letters : List Char} (h : ∀ c ∈ letters, c.isAlpha = true)
    (n : Numeral) : partNumber (letters ++ n.chars) = n.value := by
  have hletters : letters.filter Char.isDigit = [] := by
    rw [List.filter_eq_nil_iff]
    intro c hc
    simp [isDigit_of_isAlpha (h c hc)]
  have hdigits : n.chars.filter Char.isDigit = n.chars :=
    List.filter_eq_self.2 fun c hc => Numeral.isDigit_of_mem_chars hc
  have hvalue : n.chars.foldl (fun value c => 10 * value + (c.toNat - '0'.toNat)) 0 = n.value := by
    rw [← Nat.ofDigitChars_eq_foldl, Numeral.chars, Nat.ofDigitChars_append]
    simp
  have hclass : (fun c : Char => decide ('0' ≤ c) && decide (c ≤ '9')) = Char.isDigit := rfl
  simp only [partNumber, hclass, List.filter_append, hletters, hdigits, List.nil_append, hvalue]
  exact if_pos n.value_lt

namespace PreReleasePart

def chars (part : PreReleasePart) : List Char :=
  part.letters ++ part.number.chars

theorem isAlphanum_of_mem_chars {part : PreReleasePart} {c : Char} (h : c ∈ part.chars) :
    c.isAlphanum = true := by
  rw [Char.isAlphanum, Bool.or_eq_true]
  rcases List.mem_append.1 h with h | h
  · exact .inl (part.letters_alpha c h)
  · exact .inr (Numeral.isDigit_of_mem_chars h)

end PreReleasePart

def Separator.char : Separator → Char
  | .point => '.'
  | .hyphen => '-'

namespace PreRelease

def chars (p : PreRelease) : List Char :=
  p.first.chars ++ p.others.flatMap fun part => part.1.char :: part.2.chars

def numbers (p : PreRelease) : List Nat :=
  p.first.number.value :: p.others.map fun part => part.2.number.value

theorem map_partNumber (p : PreRelease) :
    (splitAt (fun c => c = '.' || c = '-') p.chars).map partNumber = p.numbers := by
  have hpart (part : PreReleasePart) : ∀ c ∈ part.chars, (c = '.' || c = '-') = false := by
    intro c hc
    simpa using ne_of_isAlphanum (PreReleasePart.isAlphanum_of_mem_chars hc)
  have hseparator (part : Separator × PreReleasePart) :
      (part.1.char = '.' || part.1.char = '-') = true := by
    cases part.1 <;> rfl
  have hnumber (part : PreReleasePart) : partNumber part.chars = part.number.value :=
    partNumber_append part.letters_alpha part.number
  rw [chars, splitAt_joined hseparator (fun part => hpart part.2) (hpart p.first)]
  simp [numbers, hnumber]

/-- The order of the versions of one release: the release comes after its pre-releases, and they
are ordered by their numbers. -/
def order : Option PreRelease → Option PreRelease → Ordering
  | none, none => .eq
  | none, some _ => .gt
  | some _, none => .lt
  | some p, some q => List.compareLex compare p.numbers q.numbers

end PreRelease

namespace VersionName

def releaseChars (v : VersionName) : List Char :=
  v.first.chars ++ v.others.flatMap fun n => '.' :: n.chars

def numbers (v : VersionName) : List Nat :=
  v.first.value :: v.others.map Numeral.value

def text (v : VersionName) : String :=
  String.ofList (v.releaseChars ++ (v.preRelease.map fun p => '-' :: p.chars).getD [])

theorem ne_of_mem_numeral {n : Numeral} {c : Char} (h : c ∈ n.chars) : c ≠ '.' ∧ c ≠ '-' :=
  ne_of_isAlphanum (by simp [Char.isAlphanum, Numeral.isDigit_of_mem_chars h])

theorem ne_hyphen_of_mem_releaseChars {v : VersionName} {c : Char} (h : c ∈ v.releaseChars) :
    c ≠ '-' := by
  rcases List.mem_append.1 h with h | h
  · exact (ne_of_mem_numeral h).2
  · obtain ⟨n, -, hn⟩ := List.mem_flatMap.1 h
    rcases List.mem_cons.1 hn with rfl | hn
    · decide
    · exact (ne_of_mem_numeral hn).2

theorem map_partNumber (v : VersionName) :
    (splitAt (· = '.') v.releaseChars).map partNumber = v.numbers := by
  have hpoint : ∀ n : Numeral, ∀ c ∈ n.chars, decide (c = '.') = false := fun n c hc => by
    simpa using (ne_of_mem_numeral hc).1
  have hnumber (n : Numeral) : partNumber n.chars = n.value :=
    partNumber_append (List.forall_mem_nil _) n
  rw [releaseChars, splitAt_joined (fun _ => rfl) hpoint (hpoint v.first)]
  simp [numbers, hnumber]

theorem ofName_text (v : VersionName) :
    VersionKey.ofName v.text =
      ⟨v.numbers, v.preRelease.isNone, (v.preRelease.map PreRelease.numbers).getD []⟩ := by
  have hrelease : ∀ c ∈ v.releaseChars, decide (c ≠ '-') = true := fun c hc => by
    simpa using ne_hyphen_of_mem_releaseChars hc
  simp only [VersionKey.ofName, text, String.toList_ofList,
    List.takeWhile_append_of_pos hrelease, List.dropWhile_append_of_pos hrelease]
  cases v.preRelease with
  | none => simp [v.map_partNumber]
  | some p => simp [v.map_partNumber, p.map_partNumber]

end VersionName

/-- Versions are ordered as their numbers are: the releases first, number by number, and within a
release its pre-releases, number by number, before the release itself. -/
theorem compareTo_ofName_text (v w : VersionName) :
    (VersionKey.ofName v.text).compareTo (VersionKey.ofName w.text) =
      (List.compareLex compare v.numbers w.numbers).then
        (PreRelease.order v.preRelease w.preRelease) := by
  rw [v.ofName_text, w.ofName_text, VersionKey.compareTo, VersionKey.compareNumbers_eq_compareLex,
    VersionKey.compareNumbers_eq_compareLex]
  cases v.preRelease <;> cases w.preRelease <;> rfl

end SnippetLens.Toolchain
