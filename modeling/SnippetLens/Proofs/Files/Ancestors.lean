import Mathlib.Data.List.Infix
import SnippetLens.Proofs.Files.Walk

/-!
The path of a place, and the paths above it.

The path of an entry is the path of its directory with the name behind it. So it leads back to the
place, if all above are directories and nothing is too long.

Going to the parent cuts the text of a path. For the path of a place that is the path of the place
above, so that the ancestors of the path are the paths of the places around it, nearest first and up
to the root.
-/

namespace SnippetLens.Files

namespace Place

/-- The names of a place as its path ends in them: last character first, with slashes between. -/
def backwards (place : Place) : List Char :=
  ['/'].intercalate (place.map fun name => name.toList.reverse)

theorem backwards_cons (name : String) (place : Place) :
    backwards (name :: place) =
      name.toList.reverse ++ if place = [] then [] else '/' :: backwards place := by
  cases place with
  | nil => simp [backwards]
  | cons above place => simp [backwards, List.intercalate]

theorem toList_join_names (place : Place) :
    (String.join (place.reverse.map fun name => "/" ++ name)).toList =
      if place = [] then [] else '/' :: (backwards place).reverse := by
  induction place with
  | nil => rfl
  | cons name place ih =>
    have hjoin : String.join ((name :: place).reverse.map fun name => "/" ++ name) =
        String.join (place.reverse.map fun name => "/" ++ name) ++ ("/" ++ name) := by
      simp
    rw [hjoin, String.toList_append, ih, backwards_cons]
    by_cases hplace : place = [] <;> simp [hplace]

theorem toList_path (place : Place) :
    (Place.path place).text.toList = '/' :: (backwards place).reverse := by
  cases place with
  | nil => rfl
  | cons name place =>
    show (String.join ((name :: place).reverse.map fun name => "/" ++ name)).toList = _
    rw [toList_join_names, if_neg (List.cons_ne_nil name place)]

/-- Whether every name on the way to a place is the name of an entry. -/
def IsNamed (place : Place) : Prop :=
  ∀ name ∈ place, IsEntryName name

theorem trimEnd_reverse_append {name : String} (h : IsEntryName name) (rest : List Char) :
    FilePath.trimEnd (name.toList.reverse ++ rest) = name.toList.reverse ++ rest := by
  obtain ⟨front, last, hlast⟩ : ∃ front last, name.toList = front ++ [last] :=
    ⟨_, _, (List.dropLast_append_getLast h.nonempty).symm⟩
  have hslash : '/' ∉ front ++ [last] := hlast ▸ h.no_slash
  have hdot : last = '.' → front ≠ [] := by
    rintro rfl rfl
    exact h.not_dot (String.toList_inj.1 hlast)
  have hend : name.toList.reverse ++ rest = last :: (front.reverse ++ rest) := by simp [hlast]
  rw [hend]
  unfold FilePath.trimEnd
  split
  · simp_all
  · simp_all
  · -- A dot at the end of a name has another character of the name before it.
    rename_i hcons
    obtain ⟨rfl, hrest⟩ := List.cons.inj hcons
    obtain ⟨before, c, rfl⟩ : ∃ before c, front = before ++ [c] :=
      ⟨_, _, (List.dropLast_append_getLast (hdot rfl)).symm⟩
    simp_all
  · rfl

theorem trimEnd_backwards {place : Place} (h : place.IsNamed) :
    FilePath.trimEnd (backwards place) = backwards place := by
  cases place with
  | nil => rfl
  | cons name place =>
    rw [backwards_cons]
    exact trimEnd_reverse_append (h name List.mem_cons_self) _

theorem backwards_ne_nil {name : String} {place : Place} (h : IsNamed (name :: place)) :
    backwards (name :: place) ≠ [] := by
  have hname := (h name List.mem_cons_self).nonempty
  rw [backwards_cons]
  simp [hname]

theorem trimEnd_dropWhile_backwards {name : String} {place : Place} (h : IsNamed (name :: place)) :
    FilePath.trimEnd ((backwards (name :: place)).dropWhile (· ≠ '/')) = backwards place := by
  obtain ⟨hname, hplace⟩ := List.forall_mem_cons.1 h
  have hpast : ∀ c ∈ name.toList.reverse, (decide (c ≠ '/')) = true := by
    intro c hc
    refine decide_eq_true ?_
    rintro rfl
    exact hname.no_slash (List.mem_reverse.1 hc)
  rw [backwards_cons, List.dropWhile_append_of_pos hpast]
  by_cases hroot : place = []
  · subst hroot
    rfl
  · rw [if_neg hroot, List.dropWhile_cons_of_neg (by simp), FilePath.trimEnd]
    exact trimEnd_backwards hplace

/-- The path of an entry is the path of its directory with the name behind it. -/
theorem path_cons {name : String} {place : Place} (h : IsNamed (name :: place)) :
    path (name :: place) = path place / name := by
  obtain ⟨hname, hplace⟩ := List.forall_mem_cons.1 h
  have hnonempty : (path place).text ≠ "" := by
    rw [← String.toList_inj.ne, toList_path]
    exact List.cons_ne_nil _ _
  have htext : (path (name :: place)).text = (path place / name).text := by
    rw [FilePath.text_join _ hname hnonempty, ← String.toList_inj, toList_path, backwards_cons]
    cases place with
    | nil =>
      have hroot : (path []).endsInSlash = true := by decide
      rw [if_pos rfl, if_pos hroot, String.toList_append, toList_path]
      simp [backwards]
    | cons above rest =>
      have hslash : (path (above :: rest)).endsInSlash = false := by
        obtain ⟨front, last, hlast⟩ :=
          (List.eq_nil_or_concat above.toList).resolve_left (hplace above (by simp)).nonempty
        have hne : last ≠ '/' := by
          rintro rfl
          exact (hplace above (by simp)).no_slash (by simp [hlast])
        rw [FilePath.endsInSlash, toList_path, backwards_cons, hlast]
        simp [List.getLast?_cons, hne]
      rw [if_neg (List.cons_ne_nil _ _), hslash]
      simp [toList_path]
  cases hpath : path (name :: place)
  cases hjoin : path place / name
  rw [hpath, hjoin] at htext
  exact congrArg FilePath.mk htext

theorem parent?_path_cons {name : String} {place : Place} (h : IsNamed (name :: place)) :
    (path (name :: place)).parent? = some (path place) := by
  have hrest : ('/' :: (backwards (name :: place)).reverse).drop 1 =
      (backwards (name :: place)).reverse := rfl
  simp only [FilePath.parent?, toList_path, FilePath.head, List.length_singleton, hrest,
    List.reverse_reverse, trimEnd_backwards h]
  split
  · rename_i hnone
    exact absurd hnone (backwards_ne_nil h)
  · rw [trimEnd_dropWhile_backwards h, List.singleton_append, ← toList_path, String.ofList_toList]

theorem length_le_backwards {place : Place} (h : place.IsNamed) :
    place.length ≤ (backwards place).length := by
  induction place with
  | nil => exact Nat.zero_le _
  | cons name place ih =>
    obtain ⟨hname, hplace⟩ := List.forall_mem_cons.1 h
    have hlength : 0 < name.toList.length := List.length_pos_iff.2 hname.nonempty
    have hrest := ih hplace
    rw [backwards_cons, List.length_append, List.length_reverse, List.length_cons]
    by_cases hroot : place = []
    · subst hroot
      simp only [List.length_nil]
      omega
    · rw [if_neg hroot, List.length_cons]
      omega

theorem ancestorsUpTo_path {place : Place} (h : place.IsNamed) {n : Nat} (hn : place.length < n) :
    FilePath.ancestorsUpTo n (path place) = place.tails.map path := by
  induction place generalizing n with
  | nil =>
    obtain ⟨n, rfl⟩ := Nat.exists_eq_add_one.2 hn
    rfl
  | cons name place ih =>
    obtain ⟨n, rfl⟩ := Nat.exists_eq_add_one.2 (Nat.zero_lt_of_lt hn)
    have hplace : IsNamed place := fun other hother => h other (List.mem_cons_of_mem _ hother)
    rw [FilePath.ancestorsUpTo, parent?_path_cons h, List.tails_cons, List.map_cons]
    show path (name :: place) :: FilePath.ancestorsUpTo n (path place) = _
    rw [ih hplace (Nat.lt_of_succ_lt_succ hn)]

/-- The ancestors of the path of a place are the paths of the places around it. -/
theorem ancestors_path {place : Place} (h : place.IsNamed) :
    (path place).ancestors = place.tails.map path := by
  apply ancestorsUpTo_path h
  have hlength := length_le_backwards h
  rw [← String.length_toList, toList_path, List.length_cons, List.length_reverse]
  omega

end Place

theorem find?_tails_eq_some_iff {α : Type} {p : List α → Bool} {l s : List α} :
    l.tails.find? p = some s ↔
      s <:+ l ∧ p s = true ∧ ∀ t, t <:+ l → s.length < t.length → p t = false := by
  induction l with
  | nil =>
    show [[]].find? p = some s ↔ _
    rw [List.find?_singleton]
    constructor
    · intro h
      split at h
      · rename_i hp
        cases h
        refine ⟨List.suffix_rfl, hp, fun t ht hlt => ?_⟩
        rw [List.suffix_nil.1 ht] at hlt
        exact absurd hlt (Nat.lt_irrefl _)
      · cases h
    · rintro ⟨hs, hp, -⟩
      rw [List.suffix_nil.1 hs] at hp ⊢
      exact if_pos hp
  | cons a l ih =>
    rw [List.tails_cons]
    by_cases hp : p (a :: l) = true
    · rw [List.find?_cons_of_pos hp]
      constructor
      · intro h
        cases h
        refine ⟨List.suffix_rfl, hp, fun t ht hlt => ?_⟩
        exact absurd ht.length_le (Nat.not_le.2 hlt)
      · rintro ⟨hs, -, hlonger⟩
        rcases List.suffix_cons_iff.1 hs with rfl | hs
        · rfl
        · have hnot := hlonger (a :: l) List.suffix_rfl (Nat.lt_succ_of_le hs.length_le)
          rw [hp] at hnot
          cases hnot
    · rw [List.find?_cons_of_neg hp, ih]
      constructor
      · rintro ⟨hs, hps, hlonger⟩
        refine ⟨hs.trans (List.suffix_cons a l), hps, fun t ht hlt => ?_⟩
        rcases List.suffix_cons_iff.1 ht with rfl | ht
        · exact Bool.eq_false_iff.2 hp
        · exact hlonger t ht hlt
      · rintro ⟨hs, hps, hlonger⟩
        rcases List.suffix_cons_iff.1 hs with rfl | hs
        · exact absurd hps hp
        · exact ⟨hs, hps, fun t ht => hlonger t (ht.trans (List.suffix_cons a l))⟩

/-! ### Where the path of a place leads -/

namespace FileTree

variable {t : FileTree} {place : Place}

/-- Whether all that is above a place are directories, and its path is not too long. -/
def IsBelow (t : FileTree) : Place → Prop
  | [] => True
  | name :: above => IsEntryName name ∧ Fits (Place.path above) name ∧
      t.find? above = some .directory ∧ t.IsBelow above

instance decidableIsBelow (t : FileTree) : (place : Place) → Decidable (t.IsBelow place)
  | [] => inferInstanceAs (Decidable True)
  | _ :: above =>
    have := decidableIsBelow t above
    inferInstanceAs (Decidable (_ ∧ _ ∧ _ ∧ _))

theorem IsBelow.isNamed (h : t.IsBelow place) : place.IsNamed := by
  induction place with
  | nil => exact nofun
  | cons name above ih => exact List.forall_mem_cons.2 ⟨h.1, ih h.2.2.2⟩

theorem locate_path (h : t.IsBelow place) (hlink : ∀ target, t.find? place ≠ some (.link target))
    (follow : Bool) : t.locate (Place.path place) follow = .ok place := by
  induction place generalizing follow with
  | nil =>
    have hmoves : (Place.path []).steps = [] := by decide
    rw [locate_of_isAbsolute t (by decide) (by decide) (by decide), hmoves, walk]
  | cons name above ih =>
    obtain ⟨hname, hfits, hdirectory, habove⟩ := h
    have hplace : t.IsDirectoryAt (Place.path above) above := by
      refine isDirectoryAt_iff.2 ⟨ih habove (fun target htarget => ?_) true, hdirectory⟩
      rw [hdirectory] at htarget
      cases htarget
    rw [Place.path_cons (List.forall_mem_cons.2 ⟨hname, habove.isNamed⟩)]
    exact locate_entry hplace hname hfits hlink follow

theorem status_path {node : Node} (h : t.IsBelow place) (hnode : t.find? place = some node)
    (hlink : ∀ target, node ≠ .link target) : t.status (Place.path place) = .ok node := by
  have hlocate := locate_path h (fun target htarget => hlink target (by simp_all)) true
  exact status_of_locate hlocate hnode

end FileTree

end SnippetLens.Files
