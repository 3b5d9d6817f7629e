import Mathlib.Data.List.Induction
import SnippetLens.Proofs.Build.ClassFiles
import SnippetLens.Proofs.Build.Run

/-!
Tools that follow a script.

A scripted tool answers each call with a result that was fixed before, and removes and writes files
that were fixed before, straight in the directory that it is run in. What cannot be removed or
written is passed over.

Which class files such a tool leaves in a directory without any is told by the script alone: those
whose name was written and not removed after that.
-/

namespace SnippetLens.Build

open Files

/-! ### Chores -/

inductive Deed where
  | unlink
  /-- Removes a file, or a directory with all that is below it. -/
  | removeTree
  | write (content : List UInt8)

def Deed.writes : Deed → Bool
  | .unlink | .removeTree => false
  | .write _ => true

structure Chore where
  name : String
  isEntryName : IsEntryName name
  deed : Deed

namespace Chore

/-- The file tree after a chore in a directory, if it can be done. -/
def attempt (dir : FilePath) (files : FileTree) (chore : Chore) : Except Failure FileTree :=
  match chore.deed with
  | .unlink => files.remove (dir / chore.name)
  | .removeTree => files.removeAll (dir / chore.name)
  | .write content => files.write (dir / chore.name) content

/-- The file tree after a chore, which changes nothing if it cannot be done. -/
def perform (dir : FilePath) (files : FileTree) (chore : Chore) : FileTree :=
  (chore.attempt dir files).toOption.getD files

theorem perform_of_ok {dir : FilePath} {files after : FileTree} {chore : Chore}
    (h : chore.attempt dir files = .ok after) : chore.perform dir files = after := by
  simp [perform, h, Except.toOption]

theorem perform_of_error {dir : FilePath} {files : FileTree} {chore : Chore} {cause : Failure}
    (h : chore.attempt dir files = .error cause) : chore.perform dir files = files := by
  simp [perform, h, Except.toOption]

theorem narrows_perform (dir : FilePath) (files : FileTree) (chore : Chore) :
    files.Narrows (chore.perform dir files) := by
  cases hattempt : chore.attempt dir files with
  | error cause =>
    rw [perform_of_error hattempt]
    exact .refl files
  | ok after =>
    rw [perform_of_ok hattempt]
    unfold attempt at hattempt
    split at hattempt
    · exact FileTree.narrows_remove hattempt
    · exact FileTree.narrows_removeAll hattempt
    · exact FileTree.narrows_write hattempt

end Chore

/-! ### What chores leave -/

/-- Whether two trees have the same names in a directory but for one, and after that one is there
just if the last argument says so. A name that is no reachable class file may be there or not. -/
structure Settles (dir : FilePath) (place : Place) (files after : FileTree) (name : String)
    (there : Bool) : Prop where
  plain : PlainDirectory after place
  named : hasClassExtension name = true → FileTree.Fits dir name →
    (name ∈ after.namesIn place ↔ there = true)
  others : ∀ other, other ≠ name → (other ∈ after.namesIn place ↔ other ∈ files.namesIn place)

section Settles

variable {dir : FilePath} {place : Place} {files after : FileTree} {name : String}

theorem settles_self (h : PlainDirectory files place) {there : Bool}
    (hnamed : hasClassExtension name = true → FileTree.Fits dir name →
      (name ∈ files.namesIn place ↔ there = true)) : Settles dir place files files name there :=
  ⟨h, hnamed, fun _ _ => Iff.rfl⟩

theorem settles_erase (h : PlainDirectory files place) :
    Settles dir place files (files.erase (name :: place)) name false where
  plain := h.erase _
  named _ _ := by simp [FileTree.mem_namesIn_erase_iff]
  others other hother := by simp [FileTree.mem_namesIn_erase_iff, hother]

theorem settles_eraseBelow (h : PlainDirectory files place) :
    Settles dir place files (files.eraseBelow (name :: place)) name false where
  plain := h.eraseBelow _
  named _ _ := by simp [FileTree.mem_namesIn_eraseBelow_iff]
  others other hother := by simp [FileTree.mem_namesIn_eraseBelow_iff, hother]

theorem settles_of_ok {chore : Chore} (h : PlainDirectory files place)
    (hplace : files.IsDirectoryAt dir place) (hattempt : chore.attempt dir files = .ok after) :
    Settles dir place files after chore.name chore.deed.writes := by
  obtain ⟨name, hname, deed⟩ := chore
  cases deed with
  | unlink =>
    obtain ⟨rfl, -⟩ := h.remove hplace hname hattempt
    exact settles_erase h
  | removeTree =>
    have hremove : files.removeAll (dir / name) = .ok after := hattempt
    rw [FileTree.removeAll_entry hplace hname (h.not_link name)] at hremove
    split at hremove
    · split at hremove
      · cases hremove
      · cases hremove
        exact settles_eraseBelow h
    · cases hremove
  | write content =>
    obtain ⟨-, hplain, hmem⟩ := h.write hplace hname hattempt
    refine ⟨hplain, fun _ _ => ?_, fun other hother => ?_⟩
    · simp [hmem, Deed.writes]
    · rw [hmem]
      exact or_iff_right hother

/-- A chore that cannot be done had nothing to do, as far as class files go. -/
theorem settles_of_error {chore : Chore} (h : PlainDirectory files place)
    (hplace : files.IsDirectoryAt dir place) {cause : Failure}
    (hattempt : chore.attempt dir files = .error cause) :
    Settles dir place files files chore.name chore.deed.writes := by
  obtain ⟨name, hname, deed⟩ := chore
  refine settles_self h fun hclass hfits => ?_
  have hregular : ∀ node, files.find? (name :: place) = some node → node.isRegular = true :=
    fun node hnode => h.isRegular_of_hasClassExtension hnode hclass
  rw [FileTree.mem_namesIn_iff]
  simp only at hfits
  cases deed with
  | unlink =>
    have hremove : files.remove (dir / name) = .error cause := hattempt
    rw [FileTree.remove_entry hplace hname (h.not_link name), if_pos hfits] at hremove
    split at hremove
    · rename_i hnode
      simp [hnode, Deed.writes]
    · rename_i hnode
      simpa [Node.isRegular] using hregular _ hnode
    · cases hremove
  | removeTree =>
    have hremove : files.removeAll (dir / name) = .error cause := hattempt
    rw [FileTree.removeAll_entry hplace hname (h.not_link name), if_pos hfits] at hremove
    split at hremove
    · rename_i hnode
      simp [hnode, Deed.writes]
    · cases hremove
  | write content =>
    have hwrite : files.write (dir / name) content = .error cause := hattempt
    rw [FileTree.write_entry hplace hname (h.not_link name), if_pos hfits] at hwrite
    cases hnode : files.find? (name :: place) with
    | none => simp [hnode] at hwrite
    | some node => simp [Deed.writes]

theorem settles_perform (h : PlainDirectory files place) (hplace : files.IsDirectoryAt dir place)
    (chore : Chore) :
    Settles dir place files (chore.perform dir files) chore.name chore.deed.writes := by
  cases hattempt : chore.attempt dir files with
  | ok after =>
    rw [Chore.perform_of_ok hattempt]
    exact settles_of_ok h hplace hattempt
  | error cause =>
    rw [Chore.perform_of_error hattempt]
    exact settles_of_error h hplace hattempt

end Settles

def performAll (dir : FilePath) (files : FileTree) (chores : List Chore) : FileTree :=
  chores.foldl (Chore.perform dir) files

def leaves (chores : List Chore) (name : String) : Bool :=
  (chores.filter fun chore => chore.name = name).getLast?.any fun chore => chore.deed.writes

theorem leaves_concat (chores : List Chore) (chore : Chore) (name : String) :
    leaves (chores ++ [chore]) name =
      if chore.name = name then chore.deed.writes else leaves chores name := by
  by_cases h : chore.name = name <;> simp [leaves, h]

theorem narrows_performAll (dir : FilePath) (files : FileTree) (chores : List Chore) :
    files.Narrows (performAll dir files chores) := by
  induction chores generalizing files with
  | nil => exact .refl files
  | cons chore chores ih => exact (chore.narrows_perform dir files).trans (ih _)

/-- Chores in a plain directory without class files leave those that they write and do not remove
again. -/
theorem performAll_of_clean {dir : FilePath} {place : Place} {files : FileTree}
    {chores : List Chore} (h : PlainDirectory files place) (hclean : HoldsNoClass files dir place)
    (hplace : (performAll dir files chores).IsDirectoryAt dir place) :
    PlainDirectory (performAll dir files chores) place ∧
      ∀ name, hasClassExtension name = true → FileTree.Fits dir name →
        (name ∈ (performAll dir files chores).namesIn place ↔ leaves chores name = true) := by
  -- From the last chore on: if the directory is still there behind a chore, it was before it.
  induction chores using List.reverseRecOn with
  | nil =>
    refine ⟨h, fun name hclass hfits => iff_of_false (hclean name hclass hfits) ?_⟩
    simp [leaves]
  | append_singleton chores chore ih =>
    have hlast : performAll dir files (chores ++ [chore]) =
        chore.perform dir (performAll dir files chores) := List.foldl_concat ..
    rw [hlast] at hplace ⊢
    have hbefore := hplace.of_narrows (chore.narrows_perform dir _)
    obtain ⟨hplain, hmem⟩ := ih hbefore
    have hsettles := settles_perform hplain hbefore chore
    refine ⟨hsettles.plain, fun name hclass hfits => ?_⟩
    rw [leaves_concat]
    by_cases hname : chore.name = name
    · subst hname
      rw [if_pos rfl]
      exact hsettles.named hclass hfits
    · rw [if_neg hname, hsettles.others name (Ne.symm hname)]
      exact hmem name hclass hfits

/-! ### Scripts -/

/-- What a scripted tool answers to one call, and what it does. -/
structure Turn where
  result : ToolResult
  chores : List Chore

/-- The runner whose calls answer as the script says, the first one as it says for zero. -/
def scripted (script : Nat → Turn) : Runner Nat where
  run := fun i _ directory files =>
    ((script i).result, performAll directory files (script i).chores, i + 1)

theorem run_scripted (script : Nat → Turn) (i : Nat) (command : Command) (directory : FilePath)
    (files : FileTree) :
    (scripted script).run i command directory files =
      ((script i).result, performAll directory files (script i).chores, i + 1) := rfl

end SnippetLens.Build
