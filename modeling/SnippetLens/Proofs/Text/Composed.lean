import SnippetLens.Proofs.Text.Erase
import SnippetLens.Text.Match

/-!
What recognisers find in a text that is put together.

A run is a nonempty text of characters of one class. A line of keywords, runs and blanks can be
taken apart in one way only, if no run goes on into what stands behind it, and the recognisers take
it apart in that way: they read a run, or some blanks, up to the end; the longest stretch before a
mark up to the last place of the mark; the shortest stretch before something else up to the first
place of that.
-/

namespace SnippetLens.Text

structure Run (p : Char → Bool) where
  text : String
  nonempty : text ≠ ""
  all : text.toList.all p = true

def Stops (p : Char → Bool) (cs : List Char) : Prop :=
  ∀ c, cs.head? = some c → p c = false

variable {α : Type} {p : Char → Bool} {rest : List Char}

theorem Run.of_mem (run : Run p) : ∀ c ∈ run.text.toList, p c = true :=
  List.all_eq_true.1 run.all

theorem Run.toList_ne_nil (run : Run p) : run.text.toList ≠ [] := by
  simpa using run.nonempty

theorem Run.newline_notMem (run : Run (· != '\n')) : '\n' ∉ run.text.toList :=
  fun hmem => by simpa using run.of_mem '\n' hmem

theorem stops_cons {c : Char} (h : p c = false) (rest : List Char) : Stops p (c :: rest) := by
  rintro _ ⟨⟩
  exact h

theorem stops_keyword {keyword : List Char} (h : keyword.head?.map p = some false)
    (rest : List Char) : Stops p (keyword ++ rest) := by
  obtain ⟨c, hc, hp⟩ := Option.map_eq_some_iff.1 h
  obtain ⟨r, rfl⟩ := List.head?_eq_some_iff.1 hc
  exact stops_cons hp _

theorem stops_of_head? {cs : List Char} (h : cs.head?.any p = false) : Stops p cs := by
  intro c hc
  simpa [hc] using h

theorem Run.stops {q : Char → Bool} (run : Run q) (h : ∀ c, q c = true → p c = false)
    (rest : List Char) : Stops p (run.text.toList ++ rest) := by
  obtain ⟨c, r, hr⟩ := List.exists_cons_of_ne_nil run.toList_ne_nil
  rw [hr]
  exact stops_cons (h c (run.of_mem c (by simp [hr]))) _

/-! ### Keywords, runs and blanks -/

theorem after?_append (lead rest : List Char) : after? lead (lead ++ rest) = some rest :=
  after?_eq_some_iff.2 rfl

theorem takeWhile_of_stops (h : Stops p rest) : rest.takeWhile p = [] := by
  cases rest with
  | nil => rfl
  | cons c r => simp [h c rfl]

theorem dropWhile_of_stops (h : Stops p rest) : rest.dropWhile p = rest := by
  cases rest with
  | nil => rfl
  | cons c r => simp [h c rfl]

theorem run?_append (run : Run p) (h : Stops p rest) :
    run? p (run.text.toList ++ rest) = some (run.text.toList, rest) := by
  have htake : (run.text.toList ++ rest).takeWhile p = run.text.toList := by
    rw [List.takeWhile_append_of_pos run.of_mem, takeWhile_of_stops h, List.append_nil]
  have hdrop : (run.text.toList ++ rest).dropWhile p = rest := by
    rw [List.dropWhile_append_of_pos run.of_mem, dropWhile_of_stops h]
  unfold run?
  rw [htake, hdrop]
  split
  · rename_i hnil
    exact absurd hnil run.toList_ne_nil
  · rename_i c r hcons
    rw [hcons]

theorem dropBlanks_append {blanks : List Char} (hblanks : ∀ c ∈ blanks, isBlank c = true)
    (h : Stops isBlank rest) : dropBlanks (blanks ++ rest) = rest := by
  rw [dropBlanks, List.dropWhile_append_of_pos hblanks, dropWhile_of_stops h]

variable {next : List Char → Option α} {a : α}

/-- Blanks are taken as far as they go, if what stands behind them is recognised. -/
theorem afterBlanks_append {blanks : List Char} (hblanks : ∀ c ∈ blanks, isBlank c = true)
    (h : Stops isBlank rest) (hnext : next rest = some a) :
    afterBlanks next (blanks ++ rest) = some a := by
  induction blanks with
  | nil =>
    cases rest with
    | nil => exact hnext
    | cons c r => simpa [afterBlanks, h c rfl] using hnext
  | cons c blanks ih =>
    have hc : isBlank c = true := hblanks c (by simp)
    have hrest := ih fun d hd => hblanks d (by simp [hd])
    simp [afterBlanks, hc, hrest]

theorem afterBlanks1_append (blanks : Run isBlank) (h : Stops isBlank rest)
    (hnext : next rest = some a) : afterBlanks1 next (blanks.text.toList ++ rest) = some a := by
  obtain ⟨c, r, hr⟩ := List.exists_cons_of_ne_nil blanks.toList_ne_nil
  have hall := blanks.of_mem
  rw [hr] at hall ⊢
  rw [List.cons_append, afterBlanks1, if_pos (hall c (by simp))]
  exact afterBlanks_append (fun d hd => hall d (by simp [hd])) h hnext

theorem restOfLine1_run (run : Run (· != '\n')) :
    restOfLine1 run.text.toList = some run.text.toList := by
  simp [restOfLine1, run.nonempty, run.newline_notMem]

/-! ### Stretches -/

/-- A match at some place is the first one, if nothing matches before it. -/
theorem leftmost_append {front : List Char} (hfront : ∀ c ∈ front, ∀ r, next (c :: r) = none)
    (hnext : next rest = some a) : leftmost next (front ++ rest) = some a := by
  induction front with
  | nil =>
    cases rest with
    | nil => exact hnext
    | cons c r => simp [leftmost, hnext]
  | cons c front ih =>
    have hlater := ih fun d hd => hfront d (by simp [hd])
    simp [leftmost, hfront c (by simp), hlater]

theorem longestBefore_of_short {closing cs : List Char} (h : cs.length < closing.length) :
    longestBefore closing cs = none := by
  have hshort : ∀ {ds : List Char}, ds.length < closing.length → closing.isPrefixOf ds = false := by
    intro ds hds
    rw [Bool.eq_false_iff, ne_eq, List.isPrefixOf_iff_prefix]
    exact fun hprefix => absurd hprefix.length_le (Nat.not_le.2 hds)
  induction cs with
  | nil =>
    cases closing with
    | nil => simp at h
    | cons c closing => rfl
  | cons c r ih =>
    have hr : r.length < closing.length := Nat.lt_of_succ_lt h
    simp [longestBefore, ih hr, hshort h]

/-- The longest stretch before a mark is the one before the mark that stands last. -/
theorem longestBefore_append {closing value : List Char} (h : '\n' ∉ value) :
    longestBefore closing (value ++ closing) = some value := by
  induction value with
  | nil =>
    cases closing with
    | nil => rfl
    | cons c closing =>
      have hlonger : longestBefore (c :: closing) closing = none :=
        longestBefore_of_short (by simp)
      simp [longestBefore, hlonger]
  | cons c value ih =>
    obtain ⟨hc, hvalue⟩ := List.ne_and_not_mem_of_not_mem_cons h
    simp [longestBefore, Ne.symm hc, ih hvalue]

theorem longestBefore1_append (closing : List Char) (value : Run (· != '\n')) :
    longestBefore1 closing (value.text.toList ++ closing) = some value.text.toList := by
  obtain ⟨c, r, hr⟩ := List.exists_cons_of_ne_nil value.toList_ne_nil
  have hline := value.newline_notMem
  rw [hr] at hline ⊢
  obtain ⟨hc, hrest⟩ := List.ne_and_not_mem_of_not_mem_cons hline
  rw [List.cons_append, longestBefore1, if_neg (Ne.symm hc), longestBefore_append hrest]
  rfl

/-- The shortest stretch before something is the one before its first place. -/
theorem shortestBefore1_append {holds : List Char → Bool} {value : List Char} (hne : value ≠ [])
    (hline : '\n' ∉ value) (hhere : holds rest = true)
    (hbefore : ∀ front back, value = front ++ back → back ≠ [] → holds (back ++ rest) = false) :
    shortestBefore1 holds (value ++ rest) = some value := by
  induction value with
  | nil => exact absurd rfl hne
  | cons c value ih =>
    obtain ⟨hc, hvalue⟩ := List.ne_and_not_mem_of_not_mem_cons hline
    rw [List.cons_append, shortestBefore1, if_neg (Ne.symm hc)]
    by_cases hempty : value = []
    · simp [hempty, hhere]
    · have hlater : holds (value ++ rest) = false := hbefore [c] value rfl hempty
      have hrest := ih hempty hvalue fun front back hvalue => by
        exact hbefore (c :: front) back (by rw [hvalue, List.cons_append])
      rw [if_neg (by simp [hlater]), hrest]
      rfl

end SnippetLens.Text
