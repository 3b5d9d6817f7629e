import SnippetLens.Proofs.Files.Ancestors
import SnippetLens.Proofs.Files.Footprint

/-!
A directory under a new name.

A path leads through a name only if that is one of its own names, or of those of a link on the way.
So a directory that is made under a name that no link has is not seen from a path without the name:
the path leads where it led before, and the same is found there.
-/

namespace SnippetLens.Files

/-! ### Paths without a name -/

/-- Whether a name is none of the names of a path. -/
def FilePath.Avoids (p : FilePath) (name : String) : Prop :=
  name.toList ∉ splitNames p.text.toList

/-- Whether a name stands nowhere in a text. -/
def Unmentioned (name text : String) : Prop :=
  ¬name.toList <:+: text.toList

instance (p : FilePath) (name : String) : Decidable (p.Avoids name) :=
  inferInstanceAs (Decidable (_ ∉ _))

instance (name text : String) : Decidable (Unmentioned name text) :=
  inferInstanceAs (Decidable (¬_))

theorem Unmentioned.mono {name text part : String} (h : Unmentioned name text)
    (hpart : part.toList <:+: text.toList) : Unmentioned name part :=
  fun hname => h (hname.trans hpart)

theorem infix_of_mem_split {separator : Char} {split : List Char → List (List Char)}
    (hnil : split [] = [[]])
    (hcons : ∀ c r first others, split r = first :: others → split (c :: r) =
      if c = separator then [] :: first :: others else (c :: first) :: others)
    {cs part : List Char} (h : part ∈ split cs) : part <:+: cs := by
  -- The first part stands where the text begins, so that one more character makes it longer.
  have hall : ∃ first others, split cs = first :: others ∧ first <+: cs ∧
      ∀ part ∈ others, part <:+: cs := by
    clear h
    induction cs with
    | nil => exact ⟨[], [], hnil, List.prefix_rfl, by simp⟩
    | cons c r ih =>
      obtain ⟨first, others, hr, hfirst, hothers⟩ := ih
      have hlonger : r <:+: c :: r := (List.suffix_cons c r).isInfix
      have hrest : ∀ part ∈ others, part <:+: c :: r :=
        fun part hpart => (hothers part hpart).trans hlonger
      rw [hcons c r first others hr]
      by_cases hc : c = separator
      · refine ⟨[], first :: others, if_pos hc, List.nil_prefix, ?_⟩
        exact List.forall_mem_cons.2 ⟨hfirst.isInfix.trans hlonger, hrest⟩
      · exact ⟨c :: first, others, if_neg hc, List.cons_prefix_cons.2 ⟨rfl, hfirst⟩, hrest⟩
  obtain ⟨first, others, hsplit, hfirst, hothers⟩ := hall
  rw [hsplit, List.mem_cons] at h
  rcases h with rfl | h
  · exact hfirst.isInfix
  · exact hothers part h

namespace FilePath

theorem infix_of_mem_splitNames {cs name : List Char} (h : name ∈ splitNames cs) : name <:+: cs :=
  infix_of_mem_split rfl (fun c r first others hr => by rw [splitNames, hr]) h

theorem avoids_of_unmentioned {name : String} {p : FilePath} (h : Unmentioned name p.text) :
    p.Avoids name := by
  exact fun hname => h (infix_of_mem_splitNames hname)

theorem Avoids.join {p : FilePath} {name rest : String} (h : p.Avoids name)
    (hrest : (⟨rest⟩ : FilePath).Avoids name) : (p / rest).Avoids name := by
  have hjoin : p / rest = FilePath.join p rest := rfl
  rw [hjoin, FilePath.join]
  split
  · exact hrest
  · split
    · rename_i hends
      rcases Bool.or_eq_true_iff.1 hends with hempty | hslash
      · have htext : p.text = "" := String.isEmpty_iff.1 hempty
        simpa [Avoids, htext] using hrest
      · obtain ⟨above, habove⟩ : ∃ above, p.text.toList = above ++ ['/'] :=
          List.getLast?_eq_some_iff.1 (by simpa [endsInSlash] using hslash)
        have hnames : name.toList ∉ splitNames above := by
          intro hname
          rw [Avoids, habove, splitNames_append_slash] at h
          exact h (List.mem_append_left _ hname)
        simp only [Avoids, String.toList_append, habove, List.append_assoc, List.singleton_append,
          splitNames_append_slash, List.mem_append, not_or]
        exact ⟨hnames, hrest⟩
    · have htext : (p.text ++ "/" ++ rest).toList = p.text.toList ++ '/' :: rest.toList := by simp
      rw [Avoids, htext, splitNames_append_slash, List.mem_append, not_or]
      exact ⟨h, hrest⟩

theorem Avoids.notMem_steps {p : FilePath} {name : String} (h : p.Avoids name)
    (hname : IsEntryName name) : name ∉ p.steps := by
  have hmoves : name ∉ p.moves := by
    intro hmem
    obtain ⟨cs, hcs, rfl⟩ := List.mem_map.1 hmem
    exact h (by simpa using (List.mem_filter.1 hcs).1)
  rcases p.steps_eq with hsteps | hsteps
  · rwa [hsteps]
  · rw [hsteps, List.mem_append, not_or]
    exact ⟨hmoves, by simpa using hname.not_dot⟩

theorem infix_of_mem_steps {text step : String} (h : step ∈ (⟨text⟩ : FilePath).steps)
    (hdot : step ≠ ".") : step.toList <:+: text.toList := by
  have hmoves : step ∈ (⟨text⟩ : FilePath).moves := by
    rcases FilePath.steps_eq ⟨text⟩ with hsteps | hsteps
    · rwa [hsteps] at h
    · rw [hsteps, List.mem_append, List.mem_singleton] at h
      exact h.resolve_right hdot
  obtain ⟨cs, hcs, rfl⟩ := List.mem_map.1 hmoves
  rw [String.toList_ofList]
  exact infix_of_mem_splitNames (List.mem_filter.1 hcs).1

theorem avoids_entry {name other : String} (h : IsEntryName other) (hne : other ≠ name) :
    (⟨other⟩ : FilePath).Avoids name := by
  rw [Avoids, splitNames_of_notMem h.no_slash, List.mem_singleton]
  exact fun hsame => hne (String.toList_inj.1 hsame).symm

theorem avoids_or {p q : Option FilePath} {name : String}
    (hp : ∀ path, p = some path → path.Avoids name) (hq : ∀ path, q = some path → path.Avoids name)
    {path : FilePath} (hpath : p.or q = some path) : path.Avoids name := by
  cases p with
  | none => exact hq path hpath
  | some found =>
    obtain rfl := Option.some.inj hpath
    exact hp found rfl

end FilePath

theorem Place.avoids_path {place : Place} {name : String} (h : place.IsNamed)
    (hname : IsEntryName name) (hnot : name ∉ place) : (Place.path place).Avoids name := by
  have hempty : name.toList ≠ [] := hname.nonempty
  induction place with
  | nil =>
    show name.toList ∉ [[], []]
    simp [hempty]
  | cons other place ih =>
    obtain ⟨hother, hplace⟩ := List.forall_mem_cons.1 h
    obtain ⟨hne, habove⟩ := List.ne_and_not_mem_of_not_mem_cons hnot
    have hlast : FilePath.splitNames other.toList = [other.toList] :=
      FilePath.splitNames_of_notMem hother.no_slash
    have hdiffers : name.toList ≠ other.toList := fun hsame => hne (String.toList_inj.1 hsame)
    have hrest := ih hplace habove
    rw [FilePath.Avoids, toList_path] at hrest ⊢
    rw [backwards_cons]
    by_cases hroot : place = []
    · simp [hroot, FilePath.splitNames, hlast, hempty, hdiffers]
    · have hback : (other.toList.reverse ++ '/' :: backwards place).reverse =
          (backwards place).reverse ++ '/' :: other.toList := by simp
      rw [if_neg hroot, hback, ← List.cons_append, FilePath.splitNames_append_slash,
        List.mem_append, not_or, hlast]
      exact ⟨hrest, by simpa using hdiffers⟩

namespace FileTree

/-! ### A tree without a name -/

/-- Whether no place of a tree has a name on its way, and no link does. -/
structure IsNew (t : FileTree) (name : String) : Prop where
  entry : IsEntryName name
  named : t.WellNamed
  nodes : ∀ entry ∈ t.nodes, name ∉ entry.1
  here : name ∉ t.here
  links : ∀ place target, (place, .link target) ∈ t.nodes → target.Avoids name

section IsNew

variable {t : FileTree} {name : String} {above : Place} {node : Node}

theorem find?_put_of_notMem {place : Place} (h : name ∉ place) :
    (t.put (name :: above) node).find? place = t.find? place := by
  refine t.find?_put_of_ne ?_ node
  rintro rfl
  simp at h

theorem here_put (spot : Place) : (t.put spot node).here = t.here := by
  unfold put
  split <;> rfl

variable (h : t.IsNew name)

include h

theorem IsNew.find?_eq_none : t.find? (name :: above) = none := by
  by_contra hsome
  obtain ⟨entry, hentry, hplace⟩ :=
    exists_entry_iff.1 (mem_namesIn_iff.2 (Option.isSome_iff_ne_none.2 hsome))
  exact h.nodes entry hentry (by simp [hplace])

theorem IsNew.namesIn_put (place : Place) :
    (t.put (name :: above) node).namesIn place =
      if place = above then t.namesIn place ++ [name] else t.namesIn place := by
  have hunknown : ¬(t.nodes.any fun entry => entry.1 = name :: above) = true := by
    rw [List.any_eq_true]
    rintro ⟨entry, hentry, hplace⟩
    exact h.nodes entry hentry (by simp [of_decide_eq_true hplace])
  rw [put, if_neg hunknown, namesIn_concat]
  by_cases hplace : place = above
  · simp [namesIn, hplace]
  · simp [namesIn, hplace, Ne.symm hplace]

theorem IsNew.avoids_target {place : Place} {target : FilePath}
    (hnode : t.find? place = some (.link target)) : target.Avoids name := by
  rw [find?] at hnode
  split at hnode
  · cases hnode
  · obtain ⟨entry, hentry, hlink⟩ := Option.map_eq_some_iff.1 hnode
    refine h.links entry.1 target ?_
    rw [← hlink]
    exact List.mem_of_find?_eq_some hentry

theorem IsNew.notMem_of_walk {follow : Bool} {links : Nat} {place goal : Place}
    {steps : List String} (hplace : name ∉ place) (hsteps : name ∉ steps)
    (hwalk : t.walk follow links place steps = .ok goal) : name ∉ goal := by
  fun_induction walk t follow links place steps with
  | case1 links place =>
    cases hwalk
    exact hplace
  | case2 links place rest ih =>
    exact ih hplace (List.not_mem_of_not_mem_cons hsteps) hwalk
  | case3 links place rest hdot ih =>
    exact ih (mt List.mem_of_mem_tail hplace) (List.not_mem_of_not_mem_cons hsteps) hwalk
  | case7 links place step rest hdot hdots hshort hnode ih =>
    obtain ⟨hstep, hrest⟩ := List.ne_and_not_mem_of_not_mem_cons hsteps
    exact ih (List.not_mem_cons_of_ne_of_not_mem hstep hplace) hrest hwalk
  | case11 place step rest hdot hdots hshort target hnode hend links htarget ih =>
    have htargetSteps := (h.avoids_target hnode).notMem_steps h.entry
    refine ih ?_ ?_ hwalk
    · split
      · exact List.not_mem_nil
      · exact hplace
    · rw [List.mem_append, not_or]
      exact ⟨htargetSteps, List.not_mem_of_not_mem_cons hsteps⟩
  | case5 | case8 | case12 =>
    -- The walk ends at its first step.
    cases hwalk
    exact List.not_mem_cons_of_ne_of_not_mem (List.ne_of_not_mem_cons hsteps) hplace
  | case4 | case6 | case9 | case10 | case13 => cases hwalk

/-- A walk without the name is the same with something under the name. -/
theorem IsNew.walk_put (follow : Bool) (links : Nat) {place : Place} {steps : List String}
    (hplace : name ∉ place) (hsteps : name ∉ steps) :
    (t.put (name :: above) node).walk follow links place steps =
      t.walk follow links place steps := by
  have hfind {step : String} {place : Place} {rest : List String} (hplace : name ∉ place)
      (hsteps : name ∉ step :: rest) :
      (t.put (name :: above) node).find? (step :: place) = t.find? (step :: place) :=
    find?_put_of_notMem
      (List.not_mem_cons_of_ne_of_not_mem (List.ne_of_not_mem_cons hsteps) hplace)
  fun_induction walk t follow links place steps with
  | case1 => rw [walk]
  | case2 links place rest ih =>
    rw [walk, if_pos rfl]
    exact ih hplace (List.not_mem_of_not_mem_cons hsteps)
  | case3 links place rest hdot ih =>
    rw [walk, if_neg hdot, if_pos rfl]
    exact ih (mt List.mem_of_mem_tail hplace) (List.not_mem_of_not_mem_cons hsteps)
  | case7 links place step rest hdot hdots hshort hnode ih =>
    obtain ⟨hstep, hrest⟩ := List.ne_and_not_mem_of_not_mem_cons hsteps
    rw [walk, if_neg hdot, if_neg hdots, if_neg hshort, hfind hplace hsteps, hnode]
    exact ih (List.not_mem_cons_of_ne_of_not_mem hstep hplace) hrest
  | case11 place step rest hdot hdots hshort target hnode hend links htarget ih =>
    have htargetSteps := (h.avoids_target hnode).notMem_steps h.entry
    rw [walk, if_neg hdot, if_neg hdots, if_neg hshort, hfind hplace hsteps, hnode]
    simp only [hend, htarget, if_false, Bool.false_eq_true]
    refine ih ?_ ?_
    · split
      · exact List.not_mem_nil
      · exact hplace
    · rw [List.mem_append, not_or]
      exact ⟨htargetSteps, List.not_mem_of_not_mem_cons hsteps⟩
  | case9 place step rest hdot hdots hshort target hnode hend =>
    rw [walk, if_neg hdot, if_neg hdots, if_neg hshort, hfind hplace hsteps, hnode]
    simp only [hend, if_false, Bool.false_eq_true]
  | case10 place step rest hdot hdots hshort target hnode hend links htarget =>
    rw [walk, if_neg hdot, if_neg hdots, if_neg hshort, hfind hplace hsteps, hnode]
    simp only [hend, htarget, if_false, if_true, Bool.false_eq_true]
  | case4 | case5 | case6 | case8 | case12 | case13 =>
    rw [walk, hfind hplace hsteps]
    simp_all

theorem IsNew.isNamed {place : Place} (hnode : (t.find? place).isSome = true) : place.IsNamed := by
  cases place with
  | nil => exact nofun
  | cons first rest =>
    obtain ⟨entry, hentry, hplace⟩ := exists_entry_iff.1 (mem_namesIn_iff.2 hnode)
    intro other hother
    exact h.named entry hentry other (hplace ▸ hother)

/-! ### What is found from a path without the name -/

section Path

variable {p : FilePath} (hp : p.Avoids name)

include hp

theorem IsNew.locate_put (follow : Bool) :
    (t.put (name :: above) node).locate p follow = t.locate p follow := by
  have hsteps := hp.notMem_steps h.entry
  simp only [locate, here_put, find?_put_of_notMem h.here,
    h.walk_put follow maxLinks List.not_mem_nil hsteps, h.walk_put follow maxLinks h.here hsteps]

theorem IsNew.notMem_of_locate {follow : Bool} {place : Place}
    (hlocate : t.locate p follow = .ok place) : name ∉ place := by
  obtain ⟨-, -, hwalk⟩ := walk_of_locate hlocate
  refine h.notMem_of_walk ?_ (hp.notMem_steps h.entry) hwalk
  unfold startOf
  split
  · exact List.not_mem_nil
  · exact h.here

theorem IsNew.status_put : (t.put (name :: above) node).status p = t.status p := by
  simp only [status, h.locate_put hp, bind, Except.bind]
  cases hlocate : t.locate p with
  | error cause => rfl
  | ok place => simp only [find?_put_of_notMem (h.notMem_of_locate hp hlocate)]

theorem IsNew.reaches_put : (t.put (name :: above) node).reaches p = t.reaches p := by
  rw [reaches, reaches, h.status_put hp]

theorem IsNew.isFile_put : (t.put (name :: above) node).isFile p = t.isFile p := by
  rw [isFile, isFile, h.status_put hp]

theorem IsNew.isDirectory_put : (t.put (name :: above) node).isDirectory p = t.isDirectory p := by
  rw [isDirectory, isDirectory, h.status_put hp]

theorem IsNew.isProgram_put : (t.put (name :: above) node).isProgram p = t.isProgram p := by
  rw [isProgram, isProgram, h.status_put hp]

theorem IsNew.canonical_put : (t.put (name :: above) node).canonical p = t.canonical p := by
  simp only [canonical, h.locate_put hp, bind, Except.bind]
  cases hlocate : t.locate p with
  | error cause => rfl
  | ok place => simp only [find?_put_of_notMem (h.notMem_of_locate hp hlocate)]

theorem IsNew.canonical_of_isProgram (hprogram : t.isProgram p = true) :
    ∃ place, t.canonical p = .ok (Place.path place) ∧ name ∉ place ∧ Place.IsNamed place := by
  simp only [isProgram, status, bind, Except.bind] at hprogram
  cases hlocate : t.locate p with
  | error cause => simp [hlocate] at hprogram
  | ok place =>
    cases hnode : t.find? place with
    | none => simp [hlocate, hnode] at hprogram
    | some found =>
      exact ⟨place, canonical_of_locate hlocate hnode, h.notMem_of_locate hp hlocate,
        h.isNamed (by simp [hnode])⟩

theorem IsNew.isDirectoryAt_put {place : Place} (hplace : t.IsDirectoryAt p place) :
    (t.put (name :: above) node).IsDirectoryAt p place := by
  obtain ⟨hlocate, hnode⟩ := isDirectoryAt_iff.1 hplace
  rw [isDirectoryAt_iff, h.locate_put hp, find?_put_of_notMem (h.notMem_of_locate hp hlocate)]
  exact ⟨hlocate, hnode⟩

end Path

end IsNew

/-! ### Making a directory -/

section Entry

variable {t : FileTree} {dir : FilePath} {place : Place} {name : String}
  (h : t.IsDirectoryAt dir place) (hname : IsEntryName name) (hfits : Fits dir name)

include h hname hfits

theorem makeDirectory_entry :
    t.makeDirectory (dir / name) =
      match t.find? (name :: place) with
      | some _ => .error .exists
      | none => .ok (t.put (name :: place) .directory) := by
  have hbare : ((dir / name).text.toList.reverse.dropWhile (· = '/')).reverse =
      (dir / name).text.toList := by
    obtain ⟨above, habove⟩ : ∃ above, (dir / name).text.toList = above ++ name.toList := by
      rw [dir.text_join hname h.nonempty]
      split <;> exact ⟨_, String.toList_append ..⟩
    obtain ⟨front, last, hlast⟩ := (List.eq_nil_or_concat name.toList).resolve_left hname.nonempty
    have hslash : last ≠ '/' := by
      rintro rfl
      exact hname.no_slash (by simp [hlast])
    simp [habove, hlast, hslash]
  have hlocate := locate_entry_itself h hname hfits
  have hnonempty : (dir / name).text.toList.isEmpty = false := by
    simpa using join_nonempty h hname
  cases hfind : t.find? (name :: place) <;>
    simp only [makeDirectory, hbare, hnonempty, String.ofList_toList, Bool.false_eq_true, if_false,
      hlocate, hfind, bind, Except.bind, pure, Except.pure]

theorem makeDirectories_entry (hnone : t.find? (name :: place) = none) :
    t.makeDirectories (dir / name) = .ok (t.put (name :: place) .directory) := by
  have hnonempty : (dir / name).text.isEmpty = false := by
    simpa using join_nonempty h hname
  rw [makeDirectories, FilePath.ancestors, FilePath.ancestorsUpTo, makeAlong, hnonempty,
    makeDirectory_entry h hname hfits, hnone]
  rfl

theorem makeDirectories_taken {content : List UInt8} {executable : Bool}
    (hfile : t.find? (name :: place) = some (.file content executable)) :
    t.makeDirectories (dir / name) = .error .exists := by
  have hnonempty : (dir / name).text.isEmpty = false := by
    simpa using join_nonempty h hname
  have hlocate : t.locate (dir / name) = .ok (name :: place) :=
    locate_entry h hname hfits (by simp [hfile]) true
  have hdirectory : t.isDirectory (dir / name) = false := by
    simp only [isDirectory, status_of_locate hlocate hfile]
  rw [makeDirectories, FilePath.ancestors, FilePath.ancestorsUpTo, makeAlong, hnonempty,
    makeDirectory_entry h hname hfits, hfile]
  simp [hdirectory]

theorem locate_made (hnone : t.find? (name :: place) = none) :
    (t.put (name :: place) .directory).locate (dir / name) = .ok (name :: place) := by
  have hself := t.find?_put_self (List.cons_ne_nil name place) .directory
  have hdirectory : (t.put (name :: place) .directory).IsDirectoryAt dir place := by
    refine h.of_turns (here_put _) fun other node hnode _ => ?_
    rw [t.find?_put_of_ne (fun hsame => ?_), hnode]
    rw [hsame, hnone] at hnode
    cases hnode
  refine locate_entry hdirectory hname hfits (fun target htarget => ?_) true
  rw [hself] at htarget
  cases htarget

theorem reaches_made (hnone : t.find? (name :: place) = none) :
    (t.put (name :: place) .directory).reaches (dir / name) = true := by
  have hself := t.find?_put_self (List.cons_ne_nil name place) .directory
  exact reaches_of_locate (locate_made h hname hfits hnone) hself

theorem canonical_made (hnone : t.find? (name :: place) = none) :
    (t.put (name :: place) .directory).canonical (dir / name) =
      .ok (Place.path (name :: place)) := by
  have hself := t.find?_put_self (List.cons_ne_nil name place) .directory
  exact canonical_of_locate (locate_made h hname hfits hnone) hself

end Entry

end FileTree

end SnippetLens.Files
