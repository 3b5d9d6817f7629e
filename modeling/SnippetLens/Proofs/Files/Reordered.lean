import SnippetLens.Proofs.Files.Entry

/-!
Trees that differ in the order of their nodes.

The order in which a directory lists its entries is the order of the nodes. No path leads elsewhere
for it: what stands at a place is found wherever it is in the list, as nothing else stands there.
-/

namespace SnippetLens.Files.FileTree

/-- Where one node stands at each place, what is found there is that node. -/
theorem find?_eq_some_iff {t : FileTree} {place : Place} {node : Node}
    (h : (t.nodes.map (·.1)).Nodup) (hplace : place ≠ []) :
    t.find? place = some node ↔ (place, node) ∈ t.nodes := by
  simp only [find?, List.isEmpty_iff, hplace, if_false, Option.map_eq_some_iff]
  constructor
  · rintro ⟨entry, hentry, rfl⟩
    obtain rfl : entry.1 = place := by simpa using List.find?_some hentry
    exact List.mem_of_find?_eq_some hentry
  · intro hmem
    obtain ⟨entry, hentry⟩ : ∃ entry, t.nodes.find? (fun entry => entry.1 = place) = some entry :=
      Option.isSome_iff_exists.1 (List.find?_isSome.2 ⟨_, hmem, by simp⟩)
    have hplace : entry.1 = place := by simpa using List.find?_some hentry
    have hsame : entry = (place, node) :=
      List.inj_on_of_nodup_map h (List.mem_of_find?_eq_some hentry) hmem hplace
    exact ⟨entry, hentry, by rw [hsame]⟩

/-- Whether two trees have the same nodes, one at each place, and the same working directory. -/
structure Reordered (t t' : FileTree) : Prop where
  here : t'.here = t.here
  perm : t.nodes.Perm t'.nodes
  places : (t.nodes.map (·.1)).Nodup

namespace Reordered

variable {t t' : FileTree} {dir : FilePath} {place : Place}

theorem symm (h : t.Reordered t') : t'.Reordered t where
  here := h.here.symm
  perm := h.perm.symm
  places := (h.perm.map _).nodup_iff.1 h.places

theorem find?_eq (h : t.Reordered t') (place : Place) : t'.find? place = t.find? place := by
  by_cases hplace : place = []
  · subst hplace
    rfl
  · refine Option.ext fun node => ?_
    rw [find?_eq_some_iff h.places hplace, find?_eq_some_iff h.symm.places hplace, h.perm.mem_iff]

theorem isDirectoryAt (h : t.Reordered t') (hdir : t.IsDirectoryAt dir place) :
    t'.IsDirectoryAt dir place :=
  hdir.of_turns h.here fun place _ hnode _ => (h.find?_eq place).trans hnode

theorem isDirectory_eq (h : t.Reordered t') (dir : FilePath) :
    t'.isDirectory dir = t.isDirectory dir := by
  rw [Bool.eq_iff_iff, isDirectory_iff, isDirectory_iff]
  exact exists_congr fun place => ⟨h.symm.isDirectoryAt, h.isDirectoryAt⟩

theorem namesIn_perm (h : t.Reordered t') (place : Place) :
    (t.namesIn place).Perm (t'.namesIn place) :=
  h.perm.filterMap _

end Reordered

end SnippetLens.Files.FileTree
