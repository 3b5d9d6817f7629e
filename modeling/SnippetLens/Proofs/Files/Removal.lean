import SnippetLens.Proofs.Files.Footprint
import SnippetLens.Proofs.Files.Reordered

/-!
Taking regular files out of a directory.

A name that leads to a regular file, through links or not, is the end of every path that takes it: no
way to a directory goes over it. So the entry can go, and the ways to all directories stay. That
holds for one entry after another, as what leads nowhere in a tree leads nowhere in a part of it.
-/

namespace SnippetLens.Files.FileTree

/-! ### Parts of a tree -/

/-- Whether all that stands in a tree stands in another one as well, with the same working
directory. -/
structure PartOf (t' t : FileTree) : Prop where
  here : t'.here = t.here
  stands : ∀ place node, t'.find? place = some node → t.find? place = some node

section PartOf

variable {t t' t'' : FileTree}

theorem PartOf.refl (t : FileTree) : t.PartOf t := ⟨rfl, fun _ _ h => h⟩

theorem PartOf.trans (h' : t''.PartOf t') (h : t'.PartOf t) : t''.PartOf t where
  here := h'.here.trans h.here
  stands place node hnode := h.stands place node (h'.stands place node hnode)

theorem partOf_erase (t : FileTree) (spot : Place) : (t.erase spot).PartOf t where
  here := rfl
  stands place node hnode := by
    by_cases hplace : place = []
    · subst hplace
      exact hnode
    · exact find?_of_find?_erase hplace hnode

theorem Reordered.partOf (h : t.Reordered t') : t'.PartOf t where
  here := h.here
  stands place _ hnode := (h.find?_eq place).symm.trans hnode

/-- What is reached in a part of a tree is reached in the tree, also with more links to spare. -/
theorem PartOf.walk_eq_ok (h : t'.PartOf t) {links more : Nat} {place goal : Place}
    {steps : List String} {node : Node} (hwalk : t'.walk true links place steps = .ok goal)
    (hgoal : t'.find? goal = some node) (hle : links ≤ more) :
    t.walk true more place steps = .ok goal := by
  fun_induction walk t' true links place steps generalizing more with
  | case1 links place =>
    rw [walk]
    exact hwalk
  | case2 links place rest ih =>
    rw [walk, if_pos rfl]
    exact ih hwalk hle
  | case3 links place rest hdot ih =>
    rw [walk, if_neg hdot, if_pos rfl]
    exact ih hwalk hle
  | case4 => cases hwalk
  | case5 links place name rest hdot hdots hshort hnone hrest =>
    cases hwalk
    rw [hnone] at hgoal
    cases hgoal
  | case6 => cases hwalk
  | case7 links place name rest hdot hdots hshort hnode ih =>
    rw [walk, if_neg hdot, if_neg hdots, if_neg hshort, h.stands _ _ hnode]
    exact ih hwalk hle
  | case8 links place name rest hdot hdots hshort target hnode hrest => simp at hrest
  | case9 => cases hwalk
  | case10 => cases hwalk
  | case11 place name rest hdot hdots hshort target hnode hrest links hsome ih =>
    obtain ⟨more, rfl⟩ := Nat.exists_eq_add_one.2 (Nat.zero_lt_of_lt hle)
    rw [walk, if_neg hdot, if_neg hdots, if_neg hshort, h.stands _ _ hnode]
    simp only [hrest, hsome]
    exact ih hwalk (Nat.le_of_succ_le_succ hle)
  | case12 links place name rest hdot hdots hshort node' hdirectory hlink hnode hrest =>
    rw [walk, if_neg hdot, if_neg hdots, if_neg hshort, h.stands _ _ hnode]
    cases node' with
    | directory => exact absurd rfl hdirectory
    | link target => exact absurd rfl (hlink target)
    | file _ _ | nullDevice | interpreter => simpa [hrest] using hwalk
  | case13 => cases hwalk

theorem isFile_iff {p : FilePath} :
    t.isFile p = true ↔ ∃ place node, t.locate p = .ok place ∧ t.find? place = some node ∧
      node.isRegular = true := by
  simp only [isFile, status, bind, Except.bind]
  cases hlocate : t.locate p with
  | error cause => simp
  | ok place =>
    cases hnode : t.find? place with
    | none => simp [hnode]
    | some node => cases node <;> simp [hnode, pure, Except.pure, Node.isRegular]

theorem PartOf.startOf_eq (h : t'.PartOf t) (p : FilePath) : t'.startOf p = t.startOf p := by
  rw [startOf, startOf, h.here]

/-- A path that leads to a regular file in a part of a tree leads to one in the tree. -/
theorem PartOf.isFile (h : t'.PartOf t) {p : FilePath} (hfile : t'.isFile p = true) :
    t.isFile p = true := by
  obtain ⟨goal, node, hlocate, hgoal, hregular⟩ := isFile_iff.1 hfile
  obtain ⟨⟨hzero, hne, hshort⟩, hstart, hwalk⟩ := walk_of_locate hlocate
  rw [h.startOf_eq] at hstart hwalk
  refine isFile_iff.2 ⟨goal, node, ?_, h.stands _ _ hgoal, hregular⟩
  rw [locate_eq_walk hzero hne hshort (h.stands _ _ hstart)]
  exact h.walk_eq_ok hwalk hgoal (Nat.le_refl _)

theorem Reordered.isFile_eq (h : t.Reordered t') (p : FilePath) : t'.isFile p = t.isFile p := by
  rw [Bool.eq_iff_iff]
  exact ⟨h.partOf.isFile, h.symm.partOf.isFile⟩

end PartOf

/-! ### Names that lead to no directory -/

/-- Whether a file tree is one that a disk can hold: each place has one node and stands in a
directory, and each name is the name of an entry. -/
structure Sound (t : FileTree) : Prop where
  names : t.WellNamed
  places : (t.nodes.map (·.1)).Nodup
  rooted : ∀ entry ∈ t.nodes, t.find? entry.1.tail = some .directory

section DeadEnd

variable {t t' : FileTree} {dir : FilePath} {place spot goal : Place} {name : String}

theorem Sound.find?_tail (h : t.Sound) (hplace : (t.find? place).isSome = true) :
    t.find? place.tail = some .directory := by
  cases place with
  | nil => rfl
  | cons name above =>
    obtain ⟨entry, hentry, hsame⟩ := exists_entry_iff.1 (mem_namesIn_iff.2 hplace)
    rw [← hsame]
    exact h.rooted entry hentry

theorem Sound.nodup_namesIn (h : t.Sound) (place : Place) : (t.namesIn place).Nodup := by
  rw [namesIn, List.Nodup, List.pairwise_filterMap]
  refine (List.pairwise_map.1 h.places).imp ?_
  rintro ⟨spot, _⟩ ⟨spot', _⟩ hne name hname name' hname' rfl
  apply hne
  show spot = spot'
  cases spot with
  | nil => cases hname
  | cons first above =>
    cases spot' with
    | nil => cases hname'
    | cons first' above' => simp_all

theorem Way.find?_goal (hsound : t.Sound) {links : Nat} {steps : List String}
    (h : t.Way links place steps goal) (hplace : t.find? place = some .directory) :
    t.find? goal = some .directory := by
  induction h with
  | here => exact hplace
  | stay _ ih => exact ih hplace
  | up _ ih => exact ih (hsound.find?_tail (by simp [hplace]))
  | down _ hnode _ ih => exact ih hnode
  | through _ _ _ _ ih =>
    apply ih
    split
    · rfl
    · exact hplace

theorem Way.exists_of_append {links : Nat} {front back : List String}
    (h : t.Way links place (front ++ back) goal) : ∃ mid, t.Way links place front mid := by
  generalize hall : front ++ back = all at h
  induction h generalizing front with
  | here =>
    obtain ⟨rfl, -⟩ := List.append_eq_nil_iff.1 hall
    exact ⟨_, .here⟩
  | stay h ih =>
    cases front with
    | nil => exact ⟨_, .here⟩
    | cons step front =>
      obtain ⟨rfl, hrest⟩ := List.cons.inj hall
      obtain ⟨mid, hmid⟩ := ih hrest
      exact ⟨mid, .stay hmid⟩
  | up h ih =>
    cases front with
    | nil => exact ⟨_, .here⟩
    | cons step front =>
      obtain ⟨rfl, hrest⟩ := List.cons.inj hall
      obtain ⟨mid, hmid⟩ := ih hrest
      exact ⟨mid, .up hmid⟩
  | down hname hnode h ih =>
    cases front with
    | nil => exact ⟨_, .here⟩
    | cons step front =>
      obtain ⟨rfl, hrest⟩ := List.cons.inj hall
      obtain ⟨mid, hmid⟩ := ih hrest
      exact ⟨mid, .down hname hnode hmid⟩
  | through hname hnode htarget h ih =>
    cases front with
    | nil => exact ⟨_, .here⟩
    | cons step front =>
      obtain ⟨rfl, rfl⟩ := List.cons.inj hall
      obtain ⟨mid, hmid⟩ := ih (List.append_assoc ..)
      exact ⟨mid, .through hname hnode htarget hmid⟩

/-- Whether a name leads from a place to no directory, whatever links are followed. -/
def DeadEnd (t : FileTree) (place : Place) (name : String) : Prop :=
  ∀ links goal, ¬t.Way links place [name] goal

theorem DeadEnd.of_narrows (h : t.DeadEnd place name) (hn : t.Narrows t') :
    t'.DeadEnd place name :=
  fun links goal hway => h links goal (hway.of_turns hn.turns)

theorem deadEnd_of_isFile (hsound : t.Sound) (h : t.IsDirectoryAt dir place)
    (hname : IsEntryName name) (hfile : t.isFile (dir / name) = true) : t.DeadEnd place name := by
  obtain ⟨goal, node, hlocate, hgoal, hregular⟩ := isFile_iff.1 hfile
  obtain ⟨-, -, hwalk⟩ := walk_of_locate hlocate
  rw [startOf_join h hname, dir.steps_join hname h.nonempty] at hwalk
  obtain ⟨links, mid, hmid, hlast⟩ :=
    exists_way_of_walk_concat hname.not_dot hname.not_dots hwalk
  obtain rfl : mid = place := hmid.unique h.way
  -- The walk and the way agree, as both succeed with links enough for either.
  intro links' other hway
  have hother : t.find? other = some .directory := hway.find?_goal hsound h.directory
  have hfirst := (PartOf.refl t).walk_eq_ok hlast hgoal (Nat.le_max_left links links')
  have hsecond := (PartOf.refl t).walk_eq_ok hway.walk_eq hother (Nat.le_max_right links links')
  obtain rfl : goal = other := Except.ok.inj (hfirst.symm.trans hsecond)
  rw [hgoal] at hother
  obtain rfl := Option.some.inj hother
  cases hregular

theorem Way.erase (hdead : t.DeadEnd spot name) {links : Nat} {steps : List String}
    (h : t.Way links place steps goal) : (t.erase (name :: spot)).Way links place steps goal := by
  induction h with
  | here => exact .here
  | stay _ ih => exact .stay ih
  | up _ ih => exact .up ih
  | @down links above goal other rest hother hnode _ ih =>
    have hapart : other :: above ≠ name :: spot := by
      intro hsame
      obtain ⟨rfl, rfl⟩ := List.cons.inj hsame
      exact hdead links _ (.down hother hnode .here)
    exact .down hother ((t.find?_erase_of_ne hapart).trans hnode) ih
  | @through links above goal other rest target hother hnode htarget h ih =>
    have hapart : other :: above ≠ name :: spot := by
      intro hsame
      obtain ⟨rfl, rfl⟩ := List.cons.inj hsame
      obtain ⟨mid, hmid⟩ := h.exists_of_append
      refine hdead (links + 1) mid (.through hother hnode htarget ?_)
      rwa [List.append_nil]
    exact .through hother ((t.find?_erase_of_ne hapart).trans hnode) htarget ih

theorem DeadEnd.find?_ne (h : t.DeadEnd place name) (hname : IsLookedUp name) :
    t.find? (name :: place) ≠ some .directory :=
  fun hnode => h 0 _ (.down hname hnode .here)

/-! ### Entries that can be removed -/

/-- Whether an entry of a directory is there, can be reached by its path, and is a dead end. -/
structure Removable (t : FileTree) (dir : FilePath) (place : Place) (name : String) : Prop where
  entry_name : IsEntryName name
  fits : Fits dir name
  there : (t.find? (name :: place)).isSome = true
  dead_end : t.DeadEnd place name

theorem removable_of_isFile (hsound : t.Sound) (h : t.IsDirectoryAt dir place)
    (hlisted : name ∈ t.namesIn place) (hfile : t.isFile (dir / name) = true) :
    t.Removable dir place name := by
  have hname : IsEntryName name := hsound.names.isEntryName hlisted
  refine ⟨hname, ?_, mem_namesIn_iff.1 hlisted, deadEnd_of_isFile hsound h hname hfile⟩
  by_contra hfits
  obtain ⟨goal, node, hlocate, -⟩ := isFile_iff.1 hfile
  rw [locate_entry_of_not_fits h hname hfits] at hlocate
  cases hlocate

namespace Removable

theorem find?_ne (h : t.Removable dir place name) : t.find? (name :: place) ≠ some .directory :=
  h.dead_end.find?_ne ⟨h.entry_name.not_dot, h.entry_name.not_dots, Nat.not_lt.2 h.fits.name_short⟩

theorem remove_eq (h : t.Removable dir place name) (hplace : t.IsDirectoryAt dir place) :
    t.remove (dir / name) = .ok (t.erase (name :: place)) := by
  have hne := h.find?_ne
  obtain ⟨node, hnode⟩ := Option.isSome_iff_exists.1 h.there
  simp only [remove, bind, Except.bind, locate_entry_itself hplace h.entry_name h.fits, hnode]
  cases node with
  | directory => exact absurd hnode hne
  | file _ _ | link _ | nullDevice | interpreter => rfl

/-- The directory is still found after one of its entries was removed. -/
theorem isDirectoryAt_erase (h : t.Removable dir place name) (hplace : t.IsDirectoryAt dir place) :
    (t.erase (name :: place)).IsDirectoryAt dir place := by
  have hkept : ∀ other, t.find? other = some .directory →
      (t.erase (name :: place)).find? other = some .directory := by
    intro other hother
    rw [t.find?_erase_of_ne, hother]
    rintro rfl
    exact h.find?_ne hother
  exact ⟨hplace.no_zero, hplace.nonempty, hplace.short, hkept _ hplace.start,
    hplace.way.erase h.dead_end, hkept _ hplace.directory⟩

theorem erase {other : String} (h : t.Removable dir place name) (hother : name ≠ other) :
    (t.erase (other :: place)).Removable dir place name where
  entry_name := h.entry_name
  fits := h.fits
  there := by
    rw [t.find?_erase_of_ne (by simpa using hother)]
    exact h.there
  dead_end := h.dead_end.of_narrows (t.narrows_erase _)

end Removable

end DeadEnd

end SnippetLens.Files.FileTree
