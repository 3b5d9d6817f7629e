import SnippetLens.Proofs.Files.Entry

/-!
Writing files in a tree whose directories and links stay.

Where a path leads is decided by the directories and links alone. A tree in which these are the same
leads it to the same place, if it leads it anywhere, although it may fail for another reason. So of
two files at different places each can be written after the other.
-/

namespace SnippetLens.Files.FileTree

/-- Whether two trees have the same directories and links, and the same working directory. -/
structure Parallel (t t' : FileTree) : Prop where
  there : t.Narrows t'
  back : t'.Narrows t

section Parallel

variable {t t' t'' : FileTree}

theorem Parallel.refl (t : FileTree) : t.Parallel t := ⟨.refl t, .refl t⟩

theorem Parallel.symm (h : t.Parallel t') : t'.Parallel t := ⟨h.back, h.there⟩

theorem parallel_put {place : Place} {node : Node} (hplace : place ≠ [])
    (hnode : node.turns = false) (hbefore : ∀ node, t.find? place = some node → node.turns = false) :
    t.Parallel (t.put place node) :=
  ⟨narrows_put t hplace hnode, put_narrows node hbefore⟩

/-- What stands in a parallel tree at the place of a node that turns. -/
theorem Parallel.find?_of_turns (h : t.Parallel t') {place : Place} {node : Node}
    (hnode : t.find? place = some node) (hturns : node.turns = true) :
    t'.find? place = some node :=
  h.back.turns place node hnode hturns

theorem Parallel.not_turns (h : t.Parallel t') {place : Place}
    (hplace : ∀ node, t.find? place = some node → node.turns = false) :
    ∀ node, t'.find? place = some node → node.turns = false := by
  intro node hnode
  by_contra hturns
  rw [Bool.not_eq_false] at hturns
  have hbefore := hplace node (h.there.turns place node hnode hturns)
  rw [hbefore] at hturns
  cases hturns

theorem Parallel.walk_eq_ok (h : t.Parallel t') {follow : Bool} {links : Nat} {place goal : Place}
    {steps : List String} (hwalk : t.walk follow links place steps = .ok goal) :
    t'.walk follow links place steps = .ok goal := by
  have hlast {links : Nat} {place : Place} {name : String} (hname : IsLookedUp name)
      (hplace : ∀ node, t.find? (name :: place) = some node → node.turns = false) :
      t'.walk follow links place [name] = .ok (name :: place) := by
    refine walk_name t' follow links hname fun target hlink => ?_
    have hturns := h.not_turns hplace _ hlink
    cases hturns
  -- A walk turns only at directories and links, and those stand in both trees.
  fun_induction walk t follow links place steps with
  | case1 links place => rwa [walk]
  | case2 links place rest ih =>
    rw [walk, if_pos rfl]
    exact ih hwalk
  | case3 links place rest hdot ih =>
    rw [walk, if_neg hdot, if_pos rfl]
    exact ih hwalk
  | case5 links place name rest hdot hdots hshort hnode hrest =>
    obtain rfl : rest = [] := List.isEmpty_iff.1 hrest
    cases hwalk
    exact hlast ⟨hdot, hdots, hshort⟩ (by simp [hnode])
  | case7 links place name rest hdot hdots hshort hnode ih =>
    rw [walk, if_neg hdot, if_neg hdots, if_neg hshort, h.find?_of_turns hnode rfl]
    exact ih hwalk
  | case8 links place name rest hdot hdots hshort target hnode hrest =>
    rw [walk, if_neg hdot, if_neg hdots, if_neg hshort, h.find?_of_turns hnode rfl]
    simpa [hrest] using hwalk
  | case11 place name rest hdot hdots hshort target hnode hrest links hempty ih =>
    rw [walk, if_neg hdot, if_neg hdots, if_neg hshort, h.find?_of_turns hnode rfl]
    simpa [hrest, hempty] using ih hwalk
  | case12 links place name rest hdot hdots hshort node hdirectory hlink hnode hrest =>
    obtain rfl : rest = [] := List.isEmpty_iff.1 hrest
    cases hwalk
    refine hlast ⟨hdot, hdots, hshort⟩ fun other hother => ?_
    obtain rfl : node = other := Option.some.inj (hnode.symm.trans hother)
    cases node with
    | directory => exact absurd rfl hdirectory
    | link target => exact absurd rfl (hlink target)
    | _ => rfl
  | _ => cases hwalk

theorem Parallel.locate_eq_ok (h : t.Parallel t') {p : FilePath} {follow : Bool} {place : Place}
    (hlocate : t.locate p follow = .ok place) : t'.locate p follow = .ok place := by
  unfold locate at hlocate ⊢
  rw [h.there.here]
  split_ifs at hlocate with hzero hempty hlong habsolute hhere
  · rw [if_neg hzero, if_neg hempty, if_neg hlong, if_pos habsolute]
    exact h.walk_eq_ok hlocate
  · rw [if_neg hzero, if_neg hempty, if_neg hlong, if_neg habsolute,
      if_pos (h.find?_of_turns hhere rfl)]
    exact h.walk_eq_ok hlocate

theorem lastTarget_of_link {p : FilePath} {place : Place} {target : FilePath}
    (hslash : p.endsInSlash = false) (hlocate : t.locate p false = .ok place)
    (hnode : t.find? place = some (.link target)) (n : Nat) :
    t.lastTarget p (n + 1) = t.lastTarget (Place.path place.tail / target.text) n := by
  rw [lastTarget, if_neg (by simp [hslash]), hlocate]
  simp only [hnode]

theorem lastTarget_of_no_link {p : FilePath} (h : ∀ place target, t.locate p false = .ok place →
      t.find? place ≠ some (.link target)) (n : Nat) : t.lastTarget p n = p := by
  cases n with
  | zero => rfl
  | succ n =>
    unfold lastTarget
    split
    · rfl
    split
    · rfl
    · rename_i place hlocate
      split
      · rename_i target hnode
        exact absurd hnode (h place target hlocate)
      · rfl

theorem Parallel.lastTarget_eq (h : t.Parallel t') (p : FilePath) (n : Nat) :
    t'.lastTarget p n = t.lastTarget p n := by
  induction n generalizing p with
  | zero => rfl
  | succ n ih =>
    by_cases hlink : ∃ place target, t.locate p false = .ok place ∧
        t.find? place = some (.link target)
    · obtain ⟨place, target, hlocate, hnode⟩ := hlink
      cases hslash : p.endsInSlash with
      | true => simp [lastTarget, hslash]
      | false =>
        rw [lastTarget_of_link hslash hlocate hnode,
          lastTarget_of_link hslash (h.locate_eq_ok hlocate) (h.find?_of_turns hnode rfl), ih]
    · rw [lastTarget_of_no_link, lastTarget_of_no_link]
      · intro place target hlocate hnode
        exact hlink ⟨place, target, hlocate, hnode⟩
      · intro place target hlocate hnode
        exact hlink ⟨place, target, h.symm.locate_eq_ok hlocate,
          h.symm.find?_of_turns hnode rfl⟩

/-- Where a file is to be written is decided by the directories and links. -/
theorem Parallel.locateForWriting_eq_ok (h : t.Parallel t') {p : FilePath} {place : Place}
    {node : Option Node} (hlocate : t.locateForWriting p = .ok (place, node)) :
    t'.locateForWriting p = .ok (place, t'.find? place) := by
  simp only [locateForWriting, bind, Except.bind, h.lastTarget_eq] at hlocate ⊢
  split at hlocate
  · split at hlocate <;> cases hlocate
  · rename_i hslash
    split at hlocate
    · cases hlocate
    · rename_i place' hplace
      obtain ⟨rfl, -⟩ := Prod.mk.inj (Except.ok.inj hlocate)
      rw [if_neg hslash, h.locate_eq_ok hplace]
      rfl

end Parallel

/-! ### Writing -/

/-- Whether a text that is written there goes where it should: into a file, or to the device that
takes everything. -/
def takesText : Option Node → Bool
  | none | some (.file ..) | some .nullDevice => true
  | some .directory | some .interpreter | some (.link _) => false

/-- What stands at a place after some bytes were written there. -/
def afterWriting (bytes : List UInt8) : Option Node → Node
  | none => .file bytes false
  | some (.file _ executable) => .file bytes executable
  | some node => node

/-- Whether a file can be written at the place that a path leads to. -/
structure IsWritableAt (t : FileTree) (p : FilePath) (place : Place) : Prop where
  located : t.locateForWriting p = .ok (place, t.find? place)
  takes : takesText (t.find? place) = true

theorem IsWritableAt.place_ne_root {t : FileTree} {p : FilePath} {place : Place}
    (h : t.IsWritableAt p place) : place ≠ [] := by
  rintro rfl
  have htakes := h.takes
  cases htakes

theorem IsWritableAt.not_turns {t : FileTree} {p : FilePath} {place : Place}
    (h : t.IsWritableAt p place) :
    ∀ node, t.find? place = some node → node.turns = false := by
  intro node hnode
  have htakes := h.takes
  rw [hnode] at htakes
  cases node with
  | directory | link _ => cases htakes
  | _ => rfl

theorem IsWritableAt.unique {t : FileTree} {p : FilePath} {place place' : Place}
    (h : t.IsWritableAt p place) (h' : t.IsWritableAt p place') : place = place' := by
  have hsame := h.located.symm.trans h'.located
  exact (Prod.mk.inj (Except.ok.inj hsame)).1

/-- What writing to a writable place changes: that place, and no directory or link. -/
theorem IsWritableAt.exists_write {t : FileTree} {p : FilePath} {place : Place}
    (h : t.IsWritableAt p place) (bytes : List UInt8) :
    ∃ t', t.write p bytes = .ok t' ∧ t.Parallel t' ∧
      t'.find? place = some (afterWriting bytes (t.find? place)) ∧
      ∀ other, other ≠ place → t'.find? other = t.find? other := by
  have hput (executable : Bool) : t.Parallel (t.put place (.file bytes executable)) ∧
      (t.put place (.file bytes executable)).find? place = some (.file bytes executable) ∧
      ∀ other, other ≠ place → (t.put place (.file bytes executable)).find? other =
        t.find? other :=
    ⟨parallel_put h.place_ne_root rfl h.not_turns, find?_put_self t h.place_ne_root _,
      fun other hother => find?_put_of_ne t hother _⟩
  have htakes := h.takes
  simp only [write, h.located, bind, Except.bind]
  cases hnode : t.find? place with
  | none => exact ⟨_, rfl, hput false⟩
  | some node =>
    rw [hnode] at htakes
    cases node with
    | file content executable => exact ⟨_, rfl, hput executable⟩
    | nullDevice => exact ⟨t, rfl, .refl t, hnode, fun _ _ => rfl⟩
    | directory | interpreter | link _ => cases htakes

/-- A file can be written after another one at a different place was. -/
theorem IsWritableAt.of_parallel {t t' : FileTree} {p : FilePath} {place : Place}
    (h : t.IsWritableAt p place) (hparallel : t.Parallel t')
    (hplace : t'.find? place = t.find? place) : t'.IsWritableAt p place where
  located := hparallel.locateForWriting_eq_ok h.located
  takes := by
    rw [hplace]
    exact h.takes

end SnippetLens.Files.FileTree
