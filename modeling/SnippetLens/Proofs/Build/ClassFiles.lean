import Mathlib.Data.List.Basic
import SnippetLens.Build.Workspace
import SnippetLens.Proofs.Files.Entry
import SnippetLens.Proofs.Text.ByteOrder

/-!
The class files of a directory.

They are listed in the order of their bytes, which together with what they are makes the list: two
ascending lists with the same names are equal. In a directory that holds files and directories
alone, the class files are the entries with the extension of class files that a path can reach, so
they change as these entries come and go. Cleaning takes all of them away.
-/

namespace SnippetLens.Build

open Files

/-! ### Ascending lists of names -/

/-- Whether names stand in strictly ascending order of their bytes. -/
def Ascending (names : List String) : Prop :=
  names.Pairwise fun a b => Text.Utf8.encode a < Text.Utf8.encode b

theorem ascending_mergeSort {names : List String} (h : names.Nodup) :
    Ascending (names.mergeSort fun a b => a ≤ b) := by
  have hsorted : (names.mergeSort fun a b => a ≤ b).Pairwise fun a b => decide (a ≤ b) = true := by
    apply List.pairwise_mergeSort
    · intro a b c hab hbc
      simpa using String.le_trans (of_decide_eq_true hab) (of_decide_eq_true hbc)
    · intro a b
      simpa using String.le_total a b
  have hnodup : (names.mergeSort fun a b => a ≤ b).Nodup :=
    (List.mergeSort_perm names _).nodup_iff.2 h
  refine (hsorted.and hnodup).imp fun {a b} hab => ?_
  exact Text.Utf8.encode_lt_encode (Std.lt_of_le_of_ne (of_decide_eq_true hab.1) hab.2)

theorem Ascending.nodup {names : List String} (h : Ascending names) : names.Nodup := by
  refine h.imp ?_
  rintro a b hab rfl
  exact List.lt_irrefl _ hab

theorem Ascending.eq_of_mem_iff {names names' : List String} (h : Ascending names)
    (h' : Ascending names') (hmem : ∀ name, name ∈ names ↔ name ∈ names') : names = names' := by
  have hperm : names.Perm names' := (List.perm_ext_iff_of_nodup h.nodup h'.nodup).2 hmem
  exact hperm.eq_of_pairwise (fun a b _ _ hab hba => absurd hba (List.lt_asymm hab)) h h'

/-! ### Directories that hold files and directories alone -/

/-- Whether a directory holds regular files, and directories that have not the extension of class
files. Its names are names of entries, and each is there once. -/
structure PlainDirectory (files : FileTree) (place : Place) : Prop where
  names : ∀ name ∈ files.namesIn place, IsEntryName name
  nodup : (files.namesIn place).Nodup
  entries : ∀ name node, files.find? (name :: place) = some node →
    node.isRegular = true ∨ node = .directory ∧ hasClassExtension name = false

namespace PlainDirectory

variable {files : FileTree} {place : Place} {name : String}

theorem not_link (h : PlainDirectory files place) (name : String) (target : FilePath) :
    files.find? (name :: place) ≠ some (.link target) := by
  intro hnode
  rcases h.entries name _ hnode with hregular | ⟨hdirectory, -⟩
  · simp [Node.isRegular] at hregular
  · simp at hdirectory

theorem isRegular_of_hasClassExtension (h : PlainDirectory files place) {node : Node}
    (hnode : files.find? (name :: place) = some node) (hclass : hasClassExtension name = true) :
    node.isRegular = true :=
  (h.entries name node hnode).resolve_right fun hdirectory => by simp [hclass] at hdirectory

theorem erase (h : PlainDirectory files place) (spot : Place) :
    PlainDirectory (files.erase spot) place where
  names name hname := h.names name ((files.namesIn_erase_sublist place spot).subset hname)
  nodup := h.nodup.sublist (files.namesIn_erase_sublist place spot)
  entries name node hnode :=
    h.entries name node (FileTree.find?_of_find?_erase (List.cons_ne_nil _ _) hnode)

theorem eraseBelow (h : PlainDirectory files place) (spot : Place) :
    PlainDirectory (files.eraseBelow spot) place where
  names name hname := h.names name ((files.namesIn_eraseBelow_sublist place spot).subset hname)
  nodup := h.nodup.sublist (files.namesIn_eraseBelow_sublist place spot)
  entries name node hnode :=
    h.entries name node (FileTree.find?_of_find?_eraseBelow (List.cons_ne_nil _ _) hnode)

theorem put (h : PlainDirectory files place) (hname : IsEntryName name) {node : Node}
    (hnode : node.isRegular = true) : PlainDirectory (files.put (name :: place) node) place where
  names other hother := by
    rcases FileTree.mem_namesIn_put_iff.1 hother with rfl | hother
    · exact hname
    · exact h.names other hother
  nodup := FileTree.nodup_namesIn_put h.nodup _ _
  entries other found hfound := by
    by_cases hplace : other = name
    · subst hplace
      rw [files.find?_put_self (List.cons_ne_nil _ _)] at hfound
      exact .inl (Option.some.inj hfound ▸ hnode)
    · rw [files.find?_put_of_ne (by simpa using hplace)] at hfound
      exact h.entries other found hfound

end PlainDirectory

/-! ### Listing -/

theorem classFiles_eq_ok {files : FileTree} {dir : FilePath} {classes : List String}
    (h : classFiles files dir = .ok classes) :
    ∃ place, files.IsDirectoryAt dir place ∧
      (∀ name, name ∈ classes ↔ name ∈ files.namesIn place ∧ hasClassExtension name = true ∧
        files.isFile (dir / name) = true) ∧
      ((files.namesIn place).Nodup → Ascending classes) := by
  cases hlist : files.list dir with
  | error cause => simp [classFiles, hlist, onPath, Except.mapError, bind, Except.bind] at h
  | ok names =>
    obtain ⟨place, hplace, rfl⟩ := FileTree.list_eq_ok_iff.1 hlist
    simp only [classFiles, hlist, onPath_ok, bind, Except.bind, pure, Except.pure,
      Except.ok.injEq] at h
    subst h
    refine ⟨place, hplace, fun name => ?_, fun hnodup => ?_⟩
    · simp [List.mem_mergeSort]
    · exact ascending_mergeSort (hnodup.filter _)

theorem exists_classFiles {files : FileTree} {dir : FilePath} {place : Place}
    (h : files.IsDirectoryAt dir place) : ∃ classes, classFiles files dir = .ok classes := by
  have hlist : files.list dir = .ok (files.namesIn place) :=
    FileTree.list_eq_ok_iff.2 ⟨place, h, rfl⟩
  simp only [classFiles, hlist, onPath_ok, bind, Except.bind]
  exact ⟨_, rfl⟩

/-! ### Removing the class files -/

theorem exists_of_removeEach_cons {files cleaned : FileTree} {dir : FilePath} {name : String}
    {names : List String} (h : removeEach files dir (name :: names) = .ok cleaned) :
    ∃ removed, files.remove (dir / name) = .ok removed ∧
      removeEach removed dir names = .ok cleaned := by
  have hstep : removeEach files dir (name :: names) =
      onPath (dir / name) (files.remove (dir / name)) >>= fun files =>
        removeEach files dir names := List.foldlM_cons
  rw [hstep] at h
  cases hone : files.remove (dir / name) with
  | error cause => simp [hone, onPath, Except.mapError, bind, Except.bind] at h
  | ok removed => exact ⟨removed, rfl, by simpa [hone, bind, Except.bind] using h⟩

theorem exists_of_cleanClassFiles {files cleaned : FileTree} {dir : FilePath} {count : Nat}
    (h : cleanClassFiles files dir = .ok (count, cleaned)) :
    ∃ classes, classFiles files dir = .ok classes ∧ removeEach files dir classes = .ok cleaned := by
  cases hclasses : classFiles files dir with
  | error e => simp [cleanClassFiles, hclasses, bind, Except.bind] at h
  | ok classes =>
    cases hremove : removeEach files dir classes with
    | error e => simp [cleanClassFiles, hclasses, hremove, bind, Except.bind] at h
    | ok left =>
      obtain ⟨-, rfl⟩ : classes.length = count ∧ left = cleaned := by
        simpa [cleanClassFiles, hclasses, hremove, bind, Except.bind, pure, Except.pure] using h
      exact ⟨classes, rfl, hremove⟩

section Plain

variable {files : FileTree} {dir : FilePath} {place : Place}

/-- The class files of a plain directory are the entries with their extension that a path can
reach. -/
theorem PlainDirectory.classFiles_eq_ok_iff (h : PlainDirectory files place)
    (hplace : files.IsDirectoryAt dir place) {classes : List String} :
    classFiles files dir = .ok classes ↔ Ascending classes ∧ ∀ name, name ∈ classes ↔
      name ∈ files.namesIn place ∧ hasClassExtension name = true ∧ FileTree.Fits dir name := by
  have hfile : ∀ name, name ∈ files.namesIn place ∧ hasClassExtension name = true ∧
      files.isFile (dir / name) = true ↔
        name ∈ files.namesIn place ∧ hasClassExtension name = true ∧ FileTree.Fits dir name := by
    refine fun name => and_congr_right fun hname => and_congr_right fun hclass => ?_
    rw [FileTree.isFile_entry hplace (h.names name hname) (h.not_link name)]
    obtain ⟨node, hnode⟩ := Option.isSome_iff_exists.1 (FileTree.mem_namesIn_iff.1 hname)
    exact and_iff_left ⟨node, hnode, h.isRegular_of_hasClassExtension hnode hclass⟩
  have hlisted : ∀ {classes}, classFiles files dir = .ok classes →
      Ascending classes ∧ ∀ name, name ∈ classes ↔
        name ∈ files.namesIn place ∧ hasClassExtension name = true ∧ FileTree.Fits dir name := by
    intro classes hclasses
    obtain ⟨found, hfound, hmem, hascending⟩ := classFiles_eq_ok hclasses
    obtain rfl := hplace.unique hfound
    exact ⟨hascending h.nodup, fun name => (hmem name).trans (hfile name)⟩
  refine ⟨hlisted, fun ⟨hascending, hmem⟩ => ?_⟩
  obtain ⟨found, hfound⟩ := exists_classFiles hplace
  obtain ⟨hfoundAscending, hfoundMem⟩ := hlisted hfound
  rw [hfound, hfoundAscending.eq_of_mem_iff hascending fun name =>
    (hfoundMem name).trans (hmem name).symm]

/-! ### Changing -/

variable {name : String}

/-- A file of a plain directory that can be removed is one of its entries. -/
theorem PlainDirectory.remove (h : PlainDirectory files place)
    (hplace : files.IsDirectoryAt dir place) (hname : IsEntryName name) {removed : FileTree}
    (hremove : files.remove (dir / name) = .ok removed) :
    removed = files.erase (name :: place) ∧ removed.IsDirectoryAt dir place := by
  rw [FileTree.remove_entry hplace hname (h.not_link name)] at hremove
  split at hremove
  · split at hremove
    · cases hremove
    · cases hremove
    · rename_i node hdirectory hnode
      cases hremove
      have hregular : node.isRegular = true := by
        refine (h.entries name node hnode).resolve_right fun hentry => ?_
        exact hdirectory hentry.1
      refine ⟨rfl, hplace.of_narrows (FileTree.erase_narrows fun found hfound => ?_)⟩
      rw [hnode, Option.some.injEq] at hfound
      exact hfound ▸ Node.turns_of_isRegular hregular
  · cases hremove

/-- Writing a file adds its name, and changes nothing else in what a plain directory holds. -/
theorem PlainDirectory.write (h : PlainDirectory files place)
    (hplace : files.IsDirectoryAt dir place) (hname : IsEntryName name) {bytes : List UInt8}
    {written : FileTree} (hwrite : files.write (dir / name) bytes = .ok written) :
    written.IsDirectoryAt dir place ∧ PlainDirectory written place ∧
      ∀ other, other ∈ written.namesIn place ↔ other = name ∨ other ∈ files.namesIn place := by
  rw [FileTree.write_entry hplace hname (h.not_link name)] at hwrite
  have hput : ∀ executable,
      (∀ node, files.find? (name :: place) = some node → node.turns = false) →
        (files.put (name :: place) (.file bytes executable)).IsDirectoryAt dir place ∧
        PlainDirectory (files.put (name :: place) (.file bytes executable)) place ∧
        ∀ other, other ∈ (files.put (name :: place) (.file bytes executable)).namesIn place ↔
          other = name ∨ other ∈ files.namesIn place := fun executable hturns =>
    ⟨hplace.of_narrows (FileTree.put_narrows _ hturns), h.put hname rfl,
      fun other => FileTree.mem_namesIn_put_iff⟩
  split at hwrite
  · split at hwrite
    · rename_i hnode
      cases hwrite
      exact hput _ (by simp [hnode, Node.turns])
    · rename_i hnode
      cases hwrite
      exact hput _ (by simp [hnode])
    · cases hwrite
    · rename_i hnode
      have hentry := h.entries name _ hnode
      simp [Node.isRegular] at hentry
    · cases hwrite
    · cases hwrite
  · cases hwrite

/-! ### Cleaning -/

/-- Whether a directory holds no class file that a path can reach. -/
def HoldsNoClass (files : FileTree) (dir : FilePath) (place : Place) : Prop :=
  ∀ name, hasClassExtension name = true → FileTree.Fits dir name → name ∉ files.namesIn place

theorem PlainDirectory.removeEach (h : PlainDirectory files place)
    (hplace : files.IsDirectoryAt dir place) {names : List String} {cleaned : FileTree}
    (hnames : ∀ name ∈ names, IsEntryName name)
    (hremove : removeEach files dir names = .ok cleaned) :
    cleaned.IsDirectoryAt dir place ∧ PlainDirectory cleaned place ∧
      ∀ name, name ∈ cleaned.namesIn place ↔ name ∉ names ∧ name ∈ files.namesIn place := by
  induction names generalizing files with
  | nil =>
    cases hremove
    exact ⟨hplace, h, by simp⟩
  | cons name names ih =>
    obtain ⟨removed, hone, hrest⟩ := exists_of_removeEach_cons hremove
    obtain ⟨rfl, hremoved⟩ := h.remove hplace (hnames name List.mem_cons_self) hone
    obtain ⟨hcleaned, hplain, hmem⟩ := ih (h.erase _) hremoved
      (fun other hother => hnames other (List.mem_cons_of_mem _ hother)) hrest
    refine ⟨hcleaned, hplain, fun other => ?_⟩
    rw [hmem, FileTree.mem_namesIn_erase_iff, List.mem_cons, not_or]
    tauto

/-- After cleaning, no class file that a path can reach is left in a plain directory. -/
theorem PlainDirectory.cleanClassFiles (h : PlainDirectory files place)
    (hplace : files.IsDirectoryAt dir place) {count : Nat} {cleaned : FileTree}
    (hclean : cleanClassFiles files dir = .ok (count, cleaned)) :
    cleaned.IsDirectoryAt dir place ∧ PlainDirectory cleaned place ∧
      HoldsNoClass cleaned dir place := by
  obtain ⟨classes, hclasses, hremove⟩ := exists_of_cleanClassFiles hclean
  obtain ⟨-, hmem⟩ := (h.classFiles_eq_ok_iff hplace).1 hclasses
  obtain ⟨hcleaned, hplain, hnames⟩ := h.removeEach hplace
    (fun name hname => h.names name ((hmem name).1 hname).1) hremove
  refine ⟨hcleaned, hplain, fun name hclass hfits hname => ?_⟩
  obtain ⟨hkept, hthere⟩ := (hnames name).1 hname
  exact hkept ((hmem name).2 ⟨hthere, hclass, hfits⟩)

end Plain

end SnippetLens.Build
