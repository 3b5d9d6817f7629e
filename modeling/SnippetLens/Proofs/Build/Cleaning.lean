import SnippetLens.Proofs.Build.Footprint
import SnippetLens.Proofs.Files.Removal

/-!
Cleaning takes away what is listed.

The class files of a directory are listed once, and then removed one after another. On the way the
listing ceases to describe the directory: a link whose target is gone leads to no file any more. It
is removed all the same, as the entry itself goes and not what it leads to. And no removal bars the
way to the directory, so every entry that was listed is found when its turn comes.
-/

namespace SnippetLens.Build

open Files

theorem hasClassExtension_iff {name : String} :
    hasClassExtension name = true ↔ ∃ stem, stem ≠ "" ∧ name = stem ++ ".class" := by
  simp only [hasClassExtension, Bool.and_eq_true, List.isSuffixOf_iff_suffix,
    decide_eq_true_eq]
  constructor
  · rintro ⟨⟨stem, hstem⟩, hne⟩
    refine ⟨String.ofList stem, ?_, String.toList_inj.1 (by simpa using hstem.symm)⟩
    intro hempty
    apply hne
    apply String.toList_inj.1
    rw [← hstem, String.ofList_eq_empty_iff.1 hempty]
    rfl
  · rintro ⟨stem, hstem, rfl⟩
    refine ⟨⟨stem.toList, by simp⟩, fun hsame => hstem ?_⟩
    have hlist := congrArg String.toList hsame
    rw [String.toList_append] at hlist
    exact String.toList_eq_nil_iff.1 (List.self_eq_append_left.1 hlist)

section Cleaning

variable {files : FileTree} {dir : FilePath} {place : Place}

theorem exists_removeEach {names : List String} (hplace : files.IsDirectoryAt dir place)
    (hnodup : names.Nodup) (hnames : ∀ name ∈ names, files.Removable dir place name) :
    ∃ cleaned, removeEach files dir names = .ok cleaned ∧ cleaned.PartOf files ∧
      cleaned.IsDirectoryAt dir place := by
  induction names generalizing files with
  | nil => exact ⟨files, rfl, .refl files, hplace⟩
  | cons name names ih =>
    obtain ⟨hname, hnames⟩ := List.forall_mem_cons.1 hnames
    obtain ⟨hnew, hnodup⟩ := List.nodup_cons.1 hnodup
    have hleft : ∀ other ∈ names, (files.erase (name :: place)).Removable dir place other := by
      intro other hother
      refine (hnames other hother).erase ?_
      rintro rfl
      exact hnew hother
    obtain ⟨cleaned, hcleaned, hpart, hgoal⟩ :=
      ih (hname.isDirectoryAt_erase hplace) hnodup hleft
    refine ⟨cleaned, ?_, hpart.trans (files.partOf_erase _), hgoal⟩
    rw [removeEach, List.foldlM_cons, hname.remove_eq hplace]
    exact hcleaned

theorem classFiles_of_reordered {other : FileTree} {classes : List String} (hsound : files.Sound)
    (hclasses : classFiles files dir = .ok classes) (h : files.Reordered other) :
    classFiles other dir = .ok classes := by
  obtain ⟨place, hplace, hmem, hascending⟩ := classFiles_eq_ok hclasses
  obtain ⟨classes', hclasses'⟩ := exists_classFiles (h.isDirectoryAt hplace)
  obtain ⟨place', hplace', hmem', hascending'⟩ := classFiles_eq_ok hclasses'
  obtain rfl : place' = place := hplace'.unique (h.isDirectoryAt hplace)
  have hperm := h.namesIn_perm place'
  have hnodup := hsound.nodup_namesIn place'
  have hsame : classes' = classes := by
    apply (hascending' (hperm.nodup_iff.1 hnodup)).eq_of_mem_iff (hascending hnodup)
    intro name
    rw [hmem', hmem, hperm.mem_iff, h.isFile_eq]
  rw [hclasses', hsame]

/-- Where the class files are gone and nothing new has come, none are listed. -/
theorem classFiles_eq_nil {cleaned : FileTree} {classes : List String}
    (hplace : cleaned.IsDirectoryAt dir place) (hpart : cleaned.PartOf files)
    (hmem : ∀ name, IsClassFile files dir place name → name ∈ classes)
    (hgone : ∀ name ∈ classes, cleaned.find? (name :: place) = none) :
    classFiles cleaned dir = .ok [] := by
  obtain ⟨left, hleft⟩ := exists_classFiles hplace
  obtain ⟨place', hplace', hmemLeft, -⟩ := classFiles_eq_ok hleft
  obtain rfl : place' = place := hplace'.unique hplace
  rw [hleft]
  congr 1
  apply List.eq_nil_iff_forall_not_mem.2
  intro name hname
  obtain ⟨hlisted, hclass, hfile⟩ := (hmemLeft name).1 hname
  obtain ⟨node, hnode⟩ := Option.isSome_iff_exists.1 (FileTree.mem_namesIn_iff.1 hlisted)
  have hbefore : IsClassFile files dir place' name := by
    refine ⟨FileTree.mem_namesIn_iff.2 ?_, hclass, hpart.isFile hfile⟩
    rw [hpart.stands _ _ hnode]
    rfl
  rw [hgone name (hmem name hbefore)] at hnode
  cases hnode

/-- The class files of a directory are its entries with that extension that lead to regular files,
in ascending order and in whatever order the directory lists them. Cleaning removes these entries and
no others, and leaves none to be listed. -/
theorem cleanClassFiles_removes_listed (hsound : files.Sound)
    (hplace : files.IsDirectoryAt dir place) :
    ∃ classes, classFiles files dir = .ok classes ∧ Ascending classes ∧
      (∀ name, name ∈ classes ↔ name ∈ files.namesIn place ∧
        (∃ stem, stem ≠ "" ∧ name = stem ++ ".class") ∧ files.isFile (dir / name) = true) ∧
      (∀ other, files.Reordered other → classFiles other dir = .ok classes) ∧
      ∃ cleaned, cleanClassFiles files dir = .ok (classes.length, cleaned) ∧
        cleaned.here = files.here ∧
        (∀ name ∈ classes, cleaned.find? (name :: place) = none) ∧
        (∀ other, (∀ name ∈ classes, other ≠ name :: place) →
          cleaned.find? other = files.find? other) ∧
        classFiles cleaned dir = .ok [] := by
  obtain ⟨classes, hclasses⟩ := exists_classFiles hplace
  obtain ⟨place', hplace', hmem, hascending⟩ := classFiles_eq_ok hclasses
  obtain rfl : place' = place := hplace'.unique hplace
  have hascending := hascending (hsound.nodup_namesIn place')
  have hremovable : ∀ name ∈ classes, files.Removable dir place' name := by
    intro name hname
    obtain ⟨hlisted, -, hfile⟩ := (hmem name).1 hname
    exact FileTree.removable_of_isFile hsound hplace hlisted hfile
  obtain ⟨cleaned, hcleaned, hpart, hfound⟩ :=
    exists_removeEach hplace hascending.nodup hremovable
  obtain ⟨-, hgone, hstays⟩ := Plan.find?_removeEach hplace (.refl files) hplace.directory
    (fun name hname => (hremovable name hname).entry_name) hcleaned
  have hclean : cleanClassFiles files dir = .ok (classes.length, cleaned) := by
    simp only [cleanClassFiles, hclasses, hcleaned, bind, Except.bind]
    rfl
  refine ⟨classes, hclasses, hascending, ?_, ?_, cleaned, hclean, hpart.here, hgone, hstays, ?_⟩
  · intro name
    rw [hmem, hasClassExtension_iff]
  · intro other
    exact classFiles_of_reordered hsound hclasses
  · exact classFiles_eq_nil hfound hpart (fun name => (hmem name).2) hgone

end Cleaning

/-! ### Links to one another -/

/-- Of the class files, one is a link to another one that is gone when its turn comes. -/
def linkedClasses : FileTree where
  nodes :=
    [(["d"], .directory), (["B.class", "d"], .link ⟨"A.class"⟩), (["A.class", "d"], .file [] false),
      ([".class", "d"], .file [] false), (["C.class", "d"], .directory),
      (["D.class", "C.class", "d"], .file [] false), (["E.class", "d"], .link ⟨"gone"⟩)]
  here := []

def linkedDirectory : FilePath := ⟨"/d"⟩

theorem isFile_linkedClasses :
    linkedClasses.Sound ∧ linkedClasses.IsDirectoryAt linkedDirectory ["d"] ∧
      linkedClasses.isFile (linkedDirectory / "A.class") = true ∧
      linkedClasses.isFile (linkedDirectory / "B.class") = true := by
  -- What is computed from texts, in one go.
  obtain ⟨hnames, hpaths, hshort, hdirectory, hfile, hlink, htarget⟩ :
      (∀ entry ∈ linkedClasses.nodes, ∀ name ∈ entry.1, IsEntryName name) ∧
      (∀ p ∈ [linkedDirectory, linkedDirectory / "A.class", linkedDirectory / "B.class"],
        p.isAbsolute = true ∧ '\x00' ∉ p.text.toList ∧
          p.text.utf8ByteSize < FileTree.maxPath) ∧
      (∀ name ∈ ["d", "A.class", "B.class"], ¬FileTree.maxName < name.utf8ByteSize) ∧
      linkedDirectory.steps = ["d"] ∧
      (linkedDirectory / "A.class").steps = ["d", "A.class"] ∧
      (linkedDirectory / "B.class").steps = ["d", "B.class"] ∧
      (⟨"A.class"⟩ : FilePath).steps = ["A.class"] ∧
        (⟨"A.class"⟩ : FilePath).isAbsolute = false := by decide +kernel
  simp only [List.forall_mem_cons] at hpaths hshort
  obtain ⟨⟨hd, hd₀, hd₁⟩, ⟨ha, ha₀, ha₁⟩, ⟨hb, hb₀, hb₁⟩, -⟩ := hpaths
  refine ⟨⟨hnames, by decide, by decide⟩, FileTree.isDirectoryAt_iff.2 ⟨?_, by decide⟩, ?_, ?_⟩
  · rw [FileTree.locate_of_isAbsolute _ hd hd₀ hd₁, hdirectory]
    simp [FileTree.walk, FileTree.find?, linkedClasses, hshort]
  · refine FileTree.isFile_iff.2 ⟨["A.class", "d"], _, ?_, rfl, rfl⟩
    rw [FileTree.locate_of_isAbsolute _ ha ha₀ ha₁, hfile]
    simp [FileTree.walk, FileTree.find?, linkedClasses, hshort]
  · refine FileTree.isFile_iff.2 ⟨["A.class", "d"], _, ?_, rfl, rfl⟩
    rw [FileTree.locate_of_isAbsolute _ hb hb₀ hb₁, hlink]
    simp [FileTree.walk, FileTree.find?, FileTree.maxLinks, linkedClasses, hshort, htarget]

/-- The link is listed and removed, and so is the file that it leads to. -/
theorem cleanClassFiles_linkedClasses :
    linkedClasses.Sound ∧ linkedClasses.IsDirectoryAt linkedDirectory ["d"] ∧
      ∃ classes cleaned, classFiles linkedClasses linkedDirectory = .ok classes ∧
        "A.class" ∈ classes ∧ "B.class" ∈ classes ∧
        cleanClassFiles linkedClasses linkedDirectory = .ok (classes.length, cleaned) ∧
        cleaned.find? ["B.class", "d"] = none ∧
        classFiles cleaned linkedDirectory = .ok [] := by
  obtain ⟨hsound, hplace, hfileAt, hlinkAt⟩ := isFile_linkedClasses
  obtain ⟨classes, hclasses, -, hmem, -, cleaned, hclean, -, hgone, -, hnone⟩ :=
    cleanClassFiles_removes_listed hsound hplace
  have hlisted : "A.class" ∈ linkedClasses.namesIn ["d"] ∧
      "B.class" ∈ linkedClasses.namesIn ["d"] := by decide
  have hfile : "A.class" ∈ classes :=
    (hmem _).2 ⟨hlisted.1, ⟨"A", by decide, by decide⟩, hfileAt⟩
  have hlink : "B.class" ∈ classes :=
    (hmem _).2 ⟨hlisted.2, ⟨"B", by decide, by decide⟩, hlinkAt⟩
  exact ⟨hsound, hplace, classes, cleaned, hclasses, hfile, hlink, hclean, hgone _ hlink, hnone⟩

end SnippetLens.Build
