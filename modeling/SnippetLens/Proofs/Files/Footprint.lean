import SnippetLens.Proofs.Files.Write

/-!
What a successful change of an entry has changed.

An operation on a path that is joined from a directory and a name can only succeed if the path leads
to the directory at that time. Where directories and links were only taken away, that is the
directory to which it led before. So the entry at the known place is changed, and nothing else,
without anything to be known of the way to it.
-/

namespace SnippetLens.Files

open FileTree

def FileTree.WellNamed (t : FileTree) : Prop :=
  ∀ entry ∈ t.nodes, ∀ name ∈ entry.1, IsEntryName name

namespace FileTree

variable {t t' : FileTree} {dir : FilePath} {place : Place} {name : String}

theorem WellNamed.isEntryName (h : t.WellNamed) (hname : name ∈ t.namesIn place) :
    IsEntryName name := by
  obtain ⟨entry, hentry, hplace⟩ := exists_entry_iff.1 hname
  exact h entry hentry name (by simp [hplace])

/-- A path to an entry that is found after some directories and links were taken away still leads
through the same directory. -/
theorem IsDirectoryAt.of_locate (h : t.IsDirectoryAt dir place) (hn : t.Narrows t')
    (hname : IsEntryName name) (hdirectory : t'.find? place = some .directory) {follow : Bool}
    {goal : Place} (hlocate : t'.locate (dir / name) follow = .ok goal) :
    t'.IsDirectoryAt dir place := by
  obtain ⟨-, hstart, hwalk⟩ := walk_of_locate hlocate
  have hsame : ∀ p, t'.startOf p = t.startOf p := fun p => by rw [startOf, startOf, hn.here]
  have hjoin : t'.startOf (dir / name) = t'.startOf dir := by
    rw [hsame, hsame, startOf_join h hname]
  rw [hjoin] at hstart hwalk
  rw [dir.steps_join hname h.nonempty] at hwalk
  obtain ⟨links, mid, hway, -⟩ := exists_way_of_walk_concat hname.not_dot hname.not_dots hwalk
  have hbefore : t.Way maxLinks (t.startOf dir) dir.moves mid := hsame dir ▸ hway.of_turns hn.turns
  obtain rfl : mid = place := hbefore.unique h.way
  exact ⟨h.no_zero, h.nonempty, h.short, hstart, hway, hdirectory⟩

/-! ### Removing -/

theorem exists_locate_of_remove {p : FilePath} (h : t.remove p = .ok t') :
    ∃ goal, t.locate p false = .ok goal := by
  simp only [remove, bind, Except.bind] at h
  split at h
  · cases h
  · exact ⟨_, ‹_›⟩

theorem eq_erase_of_remove (h : t.IsDirectoryAt dir place) (hname : IsEntryName name)
    (hremove : t.remove (dir / name) = .ok t') : t' = t.erase (name :: place) := by
  have hfits : Fits dir name := by
    by_contra hfits
    simp [remove, locate_entry_of_not_fits h hname hfits, bind, Except.bind] at hremove
  simp only [remove, locate_entry_itself h hname hfits, bind, Except.bind] at hremove
  split at hremove
  · cases hremove
  · cases hremove
  · cases hremove
    rfl

/-! ### Writing -/

/-- Whether a tree became another one by writing some bytes to one place. -/
structure Writes (t t' : FileTree) (place : Place) (bytes : List UInt8) : Prop where
  here : t'.here = t.here
  written : t'.find? place = some (afterWriting bytes (t.find? place))
  others : ∀ other, other ≠ place → t'.find? other = t.find? other

theorem exists_locate_of_write {p : FilePath} {bytes : List UInt8} (h : t.write p bytes = .ok t') :
    ∃ goal, t.locate p = .ok goal := by
  simp only [write, locateForWriting, bind, Except.bind] at h
  split at h
  · cases h
  rename_i found hfound
  split at hfound
  · split at hfound <;> cases hfound
  · split at hfound
    · cases hfound
    · exact ⟨_, ‹_›⟩

theorem isWritableAt_of_write (h : t.IsDirectoryAt dir place) (hname : IsEntryName name)
    (hlink : ∀ target, t.find? (name :: place) ≠ some (.link target)) {bytes : List UInt8}
    (hwrite : t.write (dir / name) bytes = .ok t') :
    t.IsWritableAt (dir / name) (name :: place) := by
  have hfits : Fits dir name := by
    by_contra hfits
    rw [write_entry h hname hlink, if_neg hfits] at hwrite
    cases hwrite
  refine ⟨by rw [locateForWriting_entry h hname hlink, if_pos hfits], ?_⟩
  rw [write_entry h hname hlink, if_pos hfits] at hwrite
  cases hnode : t.find? (name :: place) with
  | none => rfl
  | some node =>
    rw [hnode] at hwrite
    cases node with
    | file _ _ | nullDevice => rfl
    | directory | link _ | interpreter => cases hwrite

theorem writes_of_write (h : t.IsDirectoryAt dir place) (hname : IsEntryName name)
    (hlink : ∀ target, t.find? (name :: place) ≠ some (.link target)) {bytes : List UInt8}
    (hwrite : t.write (dir / name) bytes = .ok t') : t.Writes t' (name :: place) bytes := by
  have hwritable := isWritableAt_of_write h hname hlink hwrite
  obtain ⟨written, hwritten, hparallel, hnode, hothers⟩ := hwritable.exists_write bytes
  obtain rfl : t' = written := Except.ok.inj (hwrite.symm.trans hwritten)
  exact ⟨hparallel.there.here, hnode, hothers⟩

end FileTree

end SnippetLens.Files
