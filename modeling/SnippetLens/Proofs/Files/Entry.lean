import Mathlib.Data.List.Nodup
import SnippetLens.Files.Access
import SnippetLens.Proofs.Files.Walk

/-!
Changing one entry of a directory.

Each operation on a path that is joined from a directory and a name has one equation here, which
tells from what stands there when it fails and what it changes. What it changes is that one entry,
so the other entries of the directory stay.

None of the operations makes a directory or a link. A directory that is found after some of them was
therefore found before them, at the same place: this is what `Narrows` is for.
-/

namespace SnippetLens.Files

def Node.isRegular : Node → Bool
  | .file .. | .interpreter => true
  | .directory | .link _ | .nullDevice => false

theorem Node.turns_of_isRegular {node : Node} (h : node.isRegular = true) : node.turns = false := by
  cases node <;> simp_all [isRegular, turns]

namespace FileTree

/-! ### The names in a directory -/

theorem exists_entry_iff {t : FileTree} {place : Place} {name : String} :
    name ∈ t.namesIn place ↔ ∃ entry ∈ t.nodes, entry.1 = name :: place := by
  rw [namesIn, List.mem_filterMap]
  refine exists_congr fun entry => and_congr_right fun _ => ?_
  cases hentry : entry.1 with
  | nil => simp
  | cons first above =>
    by_cases habove : above = place <;> simp [habove]

/-- The names in a directory are those under which something stands there. -/
theorem mem_namesIn_iff {t : FileTree} {place : Place} {name : String} :
    name ∈ t.namesIn place ↔ (t.find? (name :: place)).isSome = true := by
  rw [exists_entry_iff]
  simp [find?, List.find?_isSome]

theorem namesIn_erase_sublist (t : FileTree) (place spot : Place) :
    ((t.erase spot).namesIn place).Sublist (t.namesIn place) :=
  List.filter_sublist.filterMap _

theorem namesIn_eraseBelow_sublist (t : FileTree) (place spot : Place) :
    ((t.eraseBelow spot).namesIn place).Sublist (t.namesIn place) :=
  List.filter_sublist.filterMap _

/-- A node that stands behind the others adds its name, if it stands in the directory. -/
theorem namesIn_concat (nodes : List (Place × Node)) (here spot place : Place) (node : Node) :
    (⟨nodes ++ [(spot, node)], here⟩ : FileTree).namesIn place =
      (⟨nodes, here⟩ : FileTree).namesIn place ++
        (if spot.tail = place then spot.head?.toList else []) := by
  simp only [namesIn, List.filterMap_append]
  cases spot with
  | nil => simp
  | cons name above => by_cases habove : above = place <;> simp [habove]

/-- A node that is put at a place takes the place of another one, or brings a new name. -/
theorem nodup_namesIn_put {t : FileTree} {place : Place} (h : (t.namesIn place).Nodup)
    (spot : Place) (node : Node) : ((t.put spot node).namesIn place).Nodup := by
  unfold put
  split
  · have hsame : ({ t with nodes := t.nodes.map fun entry =>
        if entry.1 = spot then (spot, node) else entry } : FileTree).namesIn place =
          t.namesIn place := by
      rw [namesIn, namesIn, List.filterMap_map]
      refine List.filterMap_congr fun entry _ => ?_
      by_cases hentry : entry.1 = spot <;> simp [hentry]
    rwa [hsame]
  · rename_i hnew
    rw [namesIn_concat]
    split
    · rename_i hplace
      refine List.nodup_append.2 ⟨h, by cases spot <;> simp, ?_⟩
      rintro name hname other hother rfl
      obtain ⟨entry, hentry, hspot⟩ := exists_entry_iff.1 hname
      have hwhole : spot = name :: place := by
        cases spot with
        | nil => simp at hother
        | cons first above => simp_all
      exact hnew (List.any_eq_true.2 ⟨entry, hentry, by simp [hspot, hwhole]⟩)
    · simpa using h

/-! ### Changing a tree -/

theorem find?_eraseBelow_of_below (t : FileTree) {spot place : Place} (hplace : place ≠ [])
    (h : spot <:+ place) : (t.eraseBelow spot).find? place = none := by
  simp only [find?, List.isEmpty_iff, hplace, if_false, Option.map_eq_none_iff, eraseBelow,
    List.find?_eq_none, List.mem_filter]
  rintro entry ⟨-, hkept⟩ hentry
  have hbelow : spot.isSuffixOf entry.1 = true := by simpa [of_decide_eq_true hentry] using h
  simp [hbelow] at hkept

theorem find?_eraseBelow_of_not_below (t : FileTree) {spot place : Place} (h : ¬spot <:+ place) :
    (t.eraseBelow spot).find? place = t.find? place := by
  have hsame : (fun entry : Place × Node =>
      decide ((!spot.isSuffixOf entry.1) = true ∧ decide (entry.1 = place) = true)) =
        fun entry => decide (entry.1 = place) := by
    funext entry
    have hplace : spot.isSuffixOf place = false := by
      rwa [Bool.eq_false_iff, Ne, List.isSuffixOf_iff_suffix]
    by_cases hentry : entry.1 = place <;> simp [hentry, hplace]
  simp only [eraseBelow, find?, List.find?_filter, hsame]

/-! ### An entry that comes or goes -/

section OneEntry

variable {t : FileTree} {place spot : Place} {name other : String} {node : Node}

/-- What stands in a tree after something was erased stood there before. -/
theorem find?_of_find?_erase (hplace : place ≠ []) (h : (t.erase spot).find? place = some node) :
    t.find? place = some node := by
  by_cases hspot : place = spot
  · subst hspot
    simp [find?_erase_self t hplace] at h
  · rwa [find?_erase_of_ne t hspot] at h

theorem find?_of_find?_eraseBelow (hplace : place ≠ [])
    (h : (t.eraseBelow spot).find? place = some node) : t.find? place = some node := by
  by_cases hspot : spot <:+ place
  · simp [find?_eraseBelow_of_below t hplace hspot] at h
  · rwa [find?_eraseBelow_of_not_below t hspot] at h

theorem mem_namesIn_erase_iff :
    name ∈ (t.erase (other :: place)).namesIn place ↔ name ≠ other ∧ name ∈ t.namesIn place := by
  rw [mem_namesIn_iff, mem_namesIn_iff]
  by_cases hname : name = other
  · subst hname
    simp [find?_erase_self t (List.cons_ne_nil name place)]
  · have hplace : name :: place ≠ other :: place := by simpa using hname
    simp [find?_erase_of_ne t hplace, hname]

theorem mem_namesIn_eraseBelow_iff :
    name ∈ (t.eraseBelow (other :: place)).namesIn place ↔
      name ≠ other ∧ name ∈ t.namesIn place := by
  rw [mem_namesIn_iff, mem_namesIn_iff]
  by_cases hname : name = other
  · subst hname
    simp [find?_eraseBelow_of_below t (List.cons_ne_nil name place) List.suffix_rfl]
  · have hbelow : ¬other :: place <:+ name :: place := by
      intro hbelow
      have hsame : other :: place = name :: place := hbelow.eq_of_length (by simp)
      exact hname (List.cons.inj hsame).1.symm
    simp [find?_eraseBelow_of_not_below t hbelow, hname]

theorem mem_namesIn_put_iff :
    name ∈ (t.put (other :: place) node).namesIn place ↔
      name = other ∨ name ∈ t.namesIn place := by
  rw [mem_namesIn_iff, mem_namesIn_iff]
  by_cases hname : name = other
  · subst hname
    simp [find?_put_self t (List.cons_ne_nil name place)]
  · have hplace : name :: place ≠ other :: place := by simpa using hname
    simp [find?_put_of_ne t hplace, hname]

end OneEntry

/-- Whether a tree has no directories and links but those of another one, and the same working
directory. -/
structure Narrows (t t' : FileTree) : Prop where
  here : t'.here = t.here
  turns : ∀ place node, t'.find? place = some node → node.turns = true → t.find? place = some node

theorem Narrows.refl (t : FileTree) : t.Narrows t := ⟨rfl, fun _ _ h _ => h⟩

theorem Narrows.trans {t t' t'' : FileTree} (h : t.Narrows t') (h' : t'.Narrows t'') :
    t.Narrows t'' where
  here := h'.here.trans h.here
  turns place node hnode hturns := h.turns place node (h'.turns place node hnode hturns) hturns

theorem IsDirectoryAt.of_narrows {t t' : FileTree} {dir : FilePath} {place : Place}
    (h : t'.IsDirectoryAt dir place) (hn : t.Narrows t') : t.IsDirectoryAt dir place :=
  h.of_turns hn.here.symm hn.turns

theorem narrows_erase (t : FileTree) (spot : Place) : t.Narrows (t.erase spot) where
  here := rfl
  turns place node hnode _ := by
    by_cases hplace : place = []
    · subst hplace
      exact hnode
    · exact find?_of_find?_erase hplace hnode

theorem narrows_eraseBelow (t : FileTree) (spot : Place) : t.Narrows (t.eraseBelow spot) where
  here := rfl
  turns place node hnode _ := by
    by_cases hplace : place = []
    · subst hplace
      exact hnode
    · exact find?_of_find?_eraseBelow hplace hnode

theorem narrows_put (t : FileTree) {spot : Place} (hspot : spot ≠ []) {node : Node}
    (hnode : node.turns = false) : t.Narrows (t.put spot node) where
  here := by
    unfold put
    split <;> rfl
  turns place other hother hturns := by
    by_cases hplace : place = spot
    · subst hplace
      rw [find?_put_self t hspot] at hother
      obtain rfl := Option.some.inj hother
      simp [hnode] at hturns
    · rwa [find?_put_of_ne t hplace] at hother

theorem erase_narrows {t : FileTree} {spot : Place}
    (h : ∀ node, t.find? spot = some node → node.turns = false) : (t.erase spot).Narrows t where
  here := rfl
  turns place node hnode hturns := by
    by_cases hplace : place = spot
    · subst hplace
      simp [h node hnode] at hturns
    · rwa [find?_erase_of_ne t hplace]

theorem put_narrows {t : FileTree} {spot : Place} (node : Node)
    (h : ∀ node, t.find? spot = some node → node.turns = false) : (t.put spot node).Narrows t where
  here := by
    unfold put
    split <;> rfl
  turns place other hother hturns := by
    by_cases hplace : place = spot
    · subst hplace
      simp [h other hother] at hturns
    · rwa [find?_put_of_ne t hplace]

/-! ### What the operations do to a tree -/

section Operations

variable {t t' : FileTree} {p : FilePath}

theorem narrows_remove (h : t.remove p = .ok t') : t.Narrows t' := by
  simp only [remove, bind, Except.bind] at h
  split at h
  · cases h
  split at h
  · cases h
  · cases h
  · cases h
    exact narrows_erase t _

theorem narrows_removeAll (h : t.removeAll p = .ok t') : t.Narrows t' := by
  simp only [removeAll, bind, Except.bind] at h
  split at h
  · cases h
  split at h
  · cases h
  · cases h
    exact narrows_eraseBelow t _

theorem eq_find?_of_locateForWriting {place : Place} {node : Option Node}
    (h : t.locateForWriting p = .ok (place, node)) : node = t.find? place := by
  simp only [locateForWriting, bind, Except.bind] at h
  split at h
  · split at h <;> cases h
  · split at h
    · cases h
    · cases h
      rfl

theorem narrows_write {bytes : List UInt8} (h : t.write p bytes = .ok t') : t.Narrows t' := by
  have hput : ∀ {place : Place} {node : Option Node} (executable : Bool),
      t.locateForWriting p = .ok (place, node) → node ≠ some .directory →
        t.Narrows (t.put place (.file bytes executable)) := by
    intro place node executable hlocate hnode
    refine narrows_put t ?_ rfl
    rintro rfl
    exact hnode (eq_find?_of_locateForWriting hlocate)
  simp only [write, bind, Except.bind] at h
  split at h
  · cases h
  rename_i spot hspot
  split at h
  · cases h
    exact hput _ hspot (by simp)
  · cases h
    exact hput _ hspot (by simp)
  · cases h
  · cases h
    exact .refl t
  · cases h
  · cases h

end Operations

/-! ### What the operations do to an entry -/

theorem readText_of_status {t : FileTree} {p : FilePath} {bytes : List UInt8} {executable : Bool}
    {text : String} (hstatus : t.status p = .ok (.file bytes executable))
    (hstrict : Text.Utf8.strict? bytes = some text) : t.readText p = .ok text := by
  simp only [readText, read, hstatus, hstrict, bind, Except.bind, pure, Except.pure]

section Entry

variable {t : FileTree} {dir : FilePath} {place : Place} {name : String}

/-- A path to a directory that can be listed leads to a directory. -/
theorem list_eq_ok_iff {names : List String} :
    t.list dir = .ok names ↔
      ∃ place, t.IsDirectoryAt dir place ∧ names = t.namesIn place := by
  simp only [isDirectoryAt_iff, list, bind, Except.bind]
  cases hlocate : t.locate dir with
  | error cause => simp
  | ok place =>
    cases hnode : t.find? place with
    | none => simp [hnode]
    | some node => cases node <;> simp [hnode, pure, Except.pure, eq_comm]

theorem isFile_entry (h : t.IsDirectoryAt dir place) (hname : IsEntryName name)
    (hlink : ∀ target, t.find? (name :: place) ≠ some (.link target)) :
    t.isFile (dir / name) = true ↔
      Fits dir name ∧ ∃ node, t.find? (name :: place) = some node ∧ node.isRegular = true := by
  by_cases hfits : Fits dir name
  · have hlocate := locate_entry h hname hfits hlink true
    cases hnode : t.find? (name :: place) with
    | none => simp [isFile, status, bind, Except.bind, hlocate, hnode]
    | some node =>
      cases node <;>
        simp [isFile, status, bind, Except.bind, pure, Except.pure, hlocate, hnode, hfits,
          Node.isRegular]
  · simp [isFile, status, bind, Except.bind, locate_entry_of_not_fits h hname hfits, hfits]

theorem remove_entry (h : t.IsDirectoryAt dir place) (hname : IsEntryName name)
    (hlink : ∀ target, t.find? (name :: place) ≠ some (.link target)) :
    t.remove (dir / name) =
      if Fits dir name then
        match t.find? (name :: place) with
        | none => .error .notFound
        | some .directory => .error .isDirectory
        | some _ => .ok (t.erase (name :: place))
      else .error .nameTooLong := by
  by_cases hfits : Fits dir name
  · simp only [remove, bind, Except.bind, locate_entry h hname hfits hlink, hfits, if_true]
    rfl
  · simp only [remove, bind, Except.bind, locate_entry_of_not_fits h hname hfits, hfits, if_false]

theorem removeAll_entry (h : t.IsDirectoryAt dir place) (hname : IsEntryName name)
    (hlink : ∀ target, t.find? (name :: place) ≠ some (.link target)) :
    t.removeAll (dir / name) =
      if Fits dir name then
        match t.find? (name :: place) with
        | none => .error .notFound
        | some _ => .ok (t.eraseBelow (name :: place))
      else .error .nameTooLong := by
  by_cases hfits : Fits dir name
  · simp only [removeAll, bind, Except.bind, locate_entry h hname hfits hlink, hfits, if_true]
    rfl
  · simp only [removeAll, bind, Except.bind, locate_entry_of_not_fits h hname hfits, hfits,
      if_false]

theorem endsInSlash_join (h : t.IsDirectoryAt dir place) (hname : IsEntryName name) :
    (dir / name).endsInSlash = false := by
  obtain ⟨front, last, hlast⟩ : ∃ front last, name.toList = front ++ [last] :=
    ⟨_, _, (List.dropLast_append_getLast hname.nonempty).symm⟩
  have hslash : last ≠ '/' := by
    rintro rfl
    exact hname.no_slash (by simp [hlast])
  obtain ⟨before, hbefore⟩ : ∃ before, (dir / name).text.toList = before ++ [last] := by
    rw [dir.text_join hname h.nonempty]
    cases dir.endsInSlash with
    | true => exact ⟨dir.text.toList ++ front, by simp [hlast]⟩
    | false => exact ⟨dir.text.toList ++ '/' :: front, by simp [hlast]⟩
  simp [FilePath.endsInSlash, hbefore, hslash]

theorem locateForWriting_entry (h : t.IsDirectoryAt dir place) (hname : IsEntryName name)
    (hlink : ∀ target, t.find? (name :: place) ≠ some (.link target)) :
    t.locateForWriting (dir / name) =
      if Fits dir name then .ok (name :: place, t.find? (name :: place))
      else .error .nameTooLong := by
  have hslash := endsInSlash_join h hname
  by_cases hfits : Fits dir name
  · have hlocate := fun follow => locate_entry h hname hfits hlink follow
    have hlast : t.lastTarget (dir / name) maxLinks = dir / name := by
      rw [maxLinks, lastTarget, hslash, hlocate]
      cases hnode : t.find? (name :: place) with
      | none => simp [hnode]
      | some node =>
        cases node with
        | link target => exact absurd hnode (hlink target)
        | _ => simp [hnode]
    simp only [locateForWriting, hlast, hslash, bind, Except.bind, hlocate, hfits, if_true,
      Bool.false_eq_true, if_false]
    rfl
  · have hlocate := fun follow => locate_entry_of_not_fits h hname hfits follow
    have hlast : t.lastTarget (dir / name) maxLinks = dir / name := by
      rw [maxLinks, lastTarget, hslash, hlocate]
      simp
    simp only [locateForWriting, hlast, hslash, bind, Except.bind, hlocate, hfits,
      Bool.false_eq_true, if_false]

theorem write_entry (h : t.IsDirectoryAt dir place) (hname : IsEntryName name)
    (hlink : ∀ target, t.find? (name :: place) ≠ some (.link target)) (bytes : List UInt8) :
    t.write (dir / name) bytes =
      if Fits dir name then
        match t.find? (name :: place) with
        | some (.file _ executable) => .ok (t.put (name :: place) (.file bytes executable))
        | none => .ok (t.put (name :: place) (.file bytes false))
        | some .directory => .error .isDirectory
        | some .nullDevice => .ok t
        | some .interpreter => .error .busy
        | some (.link _) => .error .tooManyLinks
      else .error .nameTooLong := by
  rw [write, locateForWriting_entry h hname hlink]
  by_cases hfits : Fits dir name
  · simp only [hfits, if_true, bind, Except.bind]
    cases hnode : t.find? (name :: place) with
    | none => rfl
    | some node => cases node <;> rfl
  · simp only [hfits, if_false, bind, Except.bind]

end Entry

end FileTree

end SnippetLens.Files
