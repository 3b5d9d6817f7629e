import Mathlib.Data.List.Basic
import SnippetLens.Files.Tree

/-!
Where a name in a directory leads.

A path that is joined from a directory and a name is read by the steps of the directory and then
the name. So it leads to that name at the place of the directory, whatever the spelling of the
directory is and whatever links stand on the way to it.

The way to a directory goes through directories and links alone. It stays the same as long as these
do, and a tree that has fewer of them has no other way: this is what `locate_of_turns` says.
-/

namespace SnippetLens.Files

/-- Whether a text is the name of one entry of a directory. -/
structure IsEntryName (name : String) : Prop where
  nonempty : name.toList ≠ []
  no_slash : '/' ∉ name.toList
  no_zero : '\x00' ∉ name.toList
  not_dot : name ≠ "."
  not_dots : name ≠ ".."

instance (name : String) : Decidable (IsEntryName name) :=
  decidable_of_iff
    (name.toList ≠ [] ∧ '/' ∉ name.toList ∧ '\x00' ∉ name.toList ∧ name ≠ "." ∧ name ≠ "..")
    ⟨fun ⟨h₁, h₂, h₃, h₄, h₅⟩ => ⟨h₁, h₂, h₃, h₄, h₅⟩,
      fun h => ⟨h.nonempty, h.no_slash, h.no_zero, h.not_dot, h.not_dots⟩⟩

namespace FilePath

/-! ### The steps of a path -/

theorem splitNames_of_notMem {cs : List Char} (h : '/' ∉ cs) : splitNames cs = [cs] := by
  induction cs with
  | nil => rfl
  | cons c r ih =>
    obtain ⟨hc, hr⟩ := List.ne_and_not_mem_of_not_mem_cons h
    simp [splitNames, Ne.symm hc, ih hr]

theorem splitNames_ne_nil (cs : List Char) : splitNames cs ≠ [] := by
  cases cs with
  | nil => simp [splitNames]
  | cons c r =>
    rw [splitNames]
    split
    · simp
    · split <;> simp

theorem splitNames_append_slash (cs ds : List Char) :
    splitNames (cs ++ '/' :: ds) = splitNames cs ++ splitNames ds := by
  induction cs with
  | nil => simp [splitNames]
  | cons c r ih =>
    by_cases hc : c = '/'
    · simp [splitNames, hc, ih]
    · cases hr : splitNames r with
      | nil => exact absurd hr (splitNames_ne_nil r)
      | cons name names => simp [splitNames, hc, ih, hr]

/-- The names of a path, without empty ones and without the ones that stay in place. -/
def moves (p : FilePath) : List String :=
  ((splitNames p.text.toList).filter fun name => name ≠ [] && name ≠ ['.']).map String.ofList

/-- The steps of a path are its names, and perhaps one more that stays in place. -/
theorem steps_eq (p : FilePath) : p.steps = p.moves ∨ p.steps = p.moves ++ ["."] := by
  simp only [steps, moves]
  split
  · exact .inr (by simp)
  · exact .inl (by simp)

theorem text_join (p : FilePath) {name : String} (h : IsEntryName name) (hp : p.text ≠ "") :
    (p / name).text = if p.endsInSlash then p.text ++ name else p.text ++ "/" ++ name := by
  have hrelative : Text.startsWith "/" name = false := by
    rw [Text.startsWith, Bool.eq_false_iff]
    intro hlead
    obtain ⟨r, hr⟩ := List.isPrefixOf_iff_prefix.1 hlead
    exact h.no_slash (by simp [← hr])
  have hempty : p.text.isEmpty = false := by simpa using hp
  show (join p name).text = _
  cases hslash : p.endsInSlash <;> simp [join, hrelative, hempty, hslash]

/-- The names of a joined path are the names of the directory and the one behind them. -/
theorem moves_join (p : FilePath) {name : String} (h : IsEntryName name) (hp : p.text ≠ "") :
    ∃ names, splitNames (p / name).text.toList = names ++ [name.toList] ∧
      names.filter (fun n => n ≠ [] && n ≠ ['.']) =
        (splitNames p.text.toList).filter (fun n => n ≠ [] && n ≠ ['.']) := by
  have hname : splitNames name.toList = [name.toList] := splitNames_of_notMem h.no_slash
  rw [text_join p h hp]
  cases hslash : p.endsInSlash with
  | true =>
    obtain ⟨above, habove⟩ : ∃ above, p.text.toList = above ++ ['/'] :=
      List.getLast?_eq_some_iff.1 (by simpa [endsInSlash] using hslash)
    refine ⟨splitNames above, ?_, ?_⟩
    · simp [habove, splitNames_append_slash, hname]
    · simp [habove, splitNames_append_slash, splitNames]
  | false =>
    refine ⟨splitNames p.text.toList, ?_, rfl⟩
    simp [splitNames_append_slash, hname]

theorem steps_join (p : FilePath) {name : String} (h : IsEntryName name) (hp : p.text ≠ "") :
    (p / name).steps = p.moves ++ [name] := by
  obtain ⟨names, hsplit, hmoves⟩ := moves_join p h hp
  have hdot : name.toList ≠ ['.'] := fun hdot => h.not_dot (String.toList_inj.1 hdot)
  have hlast : (decide (name.toList = []) || decide (name.toList = ['.'])) = false := by
    simp [h.nonempty, hdot]
  have hkept : [name.toList].filter (fun n => n ≠ [] && n ≠ ['.']) = [name.toList] := by
    simp [h.nonempty, hdot]
  simp only [steps, moves, hsplit, List.filter_append, hmoves, hkept, List.getLast?_concat,
    Option.any_some, hlast]
  simp

end FilePath

/-- Whether a walk can go on from a node: from a directory or from a link. -/
def Node.turns : Node → Bool
  | .directory | .link _ => true
  | .file .. | .nullDevice | .interpreter => false

namespace FileTree

/-! ### Ways to a directory -/

/-- Whether a name is looked up in the directory where it is read, and is not too long for that. -/
structure IsLookedUp (name : String) : Prop where
  not_dot : name ≠ "."
  not_dots : name ≠ ".."
  short : ¬maxName < name.utf8ByteSize

/-- The steps that lead from one directory to another, with no more links than the number says. -/
inductive Way (t : FileTree) : Nat → Place → List String → Place → Prop
  | here {links : Nat} {place : Place} : Way t links place [] place
  | stay {links : Nat} {place goal : Place} {rest : List String} (h : Way t links place rest goal) :
    Way t links place ("." :: rest) goal
  | up {links : Nat} {place goal : Place} {rest : List String}
    (h : Way t links place.tail rest goal) : Way t links place (".." :: rest) goal
  | down {links : Nat} {place goal : Place} {name : String} {rest : List String}
    (hname : IsLookedUp name) (hnode : t.find? (name :: place) = some .directory)
    (h : Way t links (name :: place) rest goal) : Way t links place (name :: rest) goal
  | through {links : Nat} {place goal : Place} {name : String} {rest : List String}
    {target : FilePath} (hname : IsLookedUp name)
    (hnode : t.find? (name :: place) = some (.link target)) (htarget : target.text.isEmpty = false)
    (h : Way t links (if target.isAbsolute then [] else place) (target.steps ++ rest) goal) :
    Way t (links + 1) place (name :: rest) goal

theorem way_of_walk {t : FileTree} {links : Nat} {place goal : Place} {steps : List String}
    (hwalk : t.walk true links place steps = .ok goal) (hgoal : t.find? goal = some .directory) :
    t.Way links place steps goal := by
  fun_induction walk t true links place steps with
  | case1 links place =>
    cases hwalk
    exact .here
  | case2 links place rest ih => exact .stay (ih hwalk)
  | case3 links place rest hdot ih => exact .up (ih hwalk)
  | case4 links place name rest hdot hdots hlong => cases hwalk
  | case5 links place name rest hdot hdots hshort hnode hrest =>
    cases hwalk
    simp [hnode] at hgoal
  | case6 links place name rest hdot hdots hshort hnode hrest => cases hwalk
  | case7 links place name rest hdot hdots hshort hnode ih =>
    exact .down ⟨hdot, hdots, hshort⟩ hnode (ih hwalk)
  | case8 links place name rest hdot hdots hshort target hnode hrest => simp at hrest
  | case9 place name rest hdot hdots hshort target hnode hrest => cases hwalk
  | case10 place name rest hdot hdots hshort target hnode hrest links hempty => cases hwalk
  | case11 place name rest hdot hdots hshort target hnode hrest links hempty ih =>
    exact .through ⟨hdot, hdots, hshort⟩ hnode (by simpa using hempty) (ih hwalk)
  | case12 links place name rest hdot hdots hshort node hdirectory hlink hnode hrest =>
    cases hwalk
    exact absurd (Option.some.inj (hnode.symm.trans hgoal)) hdirectory
  | case13 => cases hwalk

/-- A name in a directory is found where it stands, if it is no link. -/
theorem walk_name (t : FileTree) (follow : Bool) (links : Nat) {place : Place} {name : String}
    (hname : IsLookedUp name) (hlink : ∀ target, t.find? (name :: place) ≠ some (.link target)) :
    t.walk follow links place [name] = .ok (name :: place) := by
  rw [walk, if_neg hname.not_dot, if_neg hname.not_dots, if_neg hname.short]
  cases hnode : t.find? (name :: place) with
  | none => simp
  | some node =>
    cases node with
    | link target => exact absurd hnode (hlink target)
    | directory => simp [walk]
    | _ => simp

/-- A name in a directory is found where it stands, also if it is a link that is not followed. -/
theorem walk_name_itself (t : FileTree) (links : Nat) {place : Place} {name : String}
    (hname : IsLookedUp name) : t.walk false links place [name] = .ok (name :: place) := by
  rw [walk, if_neg hname.not_dot, if_neg hname.not_dots, if_neg hname.short]
  cases hnode : t.find? (name :: place) with
  | none => simp
  | some node => cases node <;> simp [walk]

/-- A way is walked first when steps follow that lead on from its end. -/
theorem Way.walk_append {t : FileTree} {links : Nat} {place goal : Place} {steps : List String}
    (h : t.Way links place steps goal) {last : List String} (hlast : last ≠ []) {follow : Bool}
    {found : Except Failure Place} (hfound : ∀ links, t.walk follow links goal last = found) :
    t.walk follow links place (steps ++ last) = found := by
  induction h with
  | here => exact hfound _
  | stay _ ih => simpa [walk] using ih hfound
  | up _ ih => simpa [walk] using ih hfound
  | down hname hnode _ ih =>
    rw [List.cons_append, walk, if_neg hname.not_dot, if_neg hname.not_dots, if_neg hname.short]
    simpa [hnode] using ih hfound
  | through hname hnode htarget _ ih =>
    rw [List.cons_append, walk, if_neg hname.not_dot, if_neg hname.not_dots, if_neg hname.short]
    simpa [hnode, hlast, htarget] using ih hfound

theorem Way.walk_eq {t : FileTree} {links : Nat} {place goal : Place} {steps : List String}
    (h : t.Way links place steps goal) : t.walk true links place steps = .ok goal := by
  induction h with
  | here => rw [walk]
  | stay _ ih => simpa [walk] using ih
  | up _ ih => simpa [walk] using ih
  | down hname hnode _ ih =>
    rw [walk, if_neg hname.not_dot, if_neg hname.not_dots, if_neg hname.short]
    simpa [hnode] using ih
  | through hname hnode htarget _ ih =>
    rw [walk, if_neg hname.not_dot, if_neg hname.not_dots, if_neg hname.short]
    simpa [hnode, htarget] using ih

theorem Way.unique {t : FileTree} {links : Nat} {place goal goal' : Place} {steps : List String}
    (h : t.Way links place steps goal) (h' : t.Way links place steps goal') : goal = goal' :=
  Except.ok.inj (h.walk_eq.symm.trans h'.walk_eq)

/-- A walk that ends with a name has found a way to where the name is looked up. -/
theorem exists_way_of_walk_concat {t : FileTree} {follow : Bool} {links : Nat} {place goal : Place}
    {steps : List String} {name : String} (hdot : name ≠ ".") (hdots : name ≠ "..")
    (hwalk : t.walk follow links place (steps ++ [name]) = .ok goal) :
    ∃ links' mid, t.Way links place steps mid ∧ t.walk follow links' mid [name] = .ok goal := by
  generalize hall : steps ++ [name] = all at hwalk
  induction links, place, all using walk.induct t follow generalizing steps with
  | case1 => simp at hall
  | case2 links place rest ih =>
    cases steps with
    | nil => exact absurd (List.cons.inj hall).1 hdot
    | cons step steps =>
      obtain ⟨rfl, rfl⟩ := List.cons.inj hall
      rw [walk, if_pos rfl] at hwalk
      obtain ⟨links', mid, hway, hname⟩ := ih rfl hwalk
      exact ⟨links', mid, .stay hway, hname⟩
  | case3 links place rest hne ih =>
    cases steps with
    | nil => exact absurd (List.cons.inj hall).1 hdots
    | cons step steps =>
      obtain ⟨rfl, rfl⟩ := List.cons.inj hall
      rw [walk, if_neg hne, if_pos rfl] at hwalk
      obtain ⟨links', mid, hway, hname⟩ := ih rfl hwalk
      exact ⟨links', mid, .up hway, hname⟩
  | case7 links place first rest hfirst hfirst' hshort hnode ih =>
    cases steps with
    | nil =>
      obtain ⟨rfl, rfl⟩ := List.cons.inj hall
      exact ⟨links, place, .here, hwalk⟩
    | cons step steps =>
      obtain ⟨rfl, rfl⟩ := List.cons.inj hall
      rw [walk, if_neg hfirst, if_neg hfirst', if_neg hshort, hnode] at hwalk
      obtain ⟨links', mid, hway, hname⟩ := ih rfl hwalk
      exact ⟨links', mid, .down ⟨hfirst, hfirst', hshort⟩ hnode hway, hname⟩
  | case11 place first rest hfirst hfirst' hshort target hnode hrest links htarget ih =>
    cases steps with
    | nil =>
      obtain ⟨rfl, rfl⟩ := List.cons.inj hall
      exact ⟨links + 1, place, .here, hwalk⟩
    | cons step steps =>
      obtain ⟨rfl, rfl⟩ := List.cons.inj hall
      rw [walk, if_neg hfirst, if_neg hfirst', if_neg hshort, hnode] at hwalk
      simp only [hrest, htarget] at hwalk
      obtain ⟨links', mid, hway, hname⟩ := ih (List.append_assoc ..) hwalk
      have hsome : target.text.isEmpty = false := by simpa using htarget
      exact ⟨links', mid, .through ⟨hfirst, hfirst', hshort⟩ hnode hsome hway, hname⟩
  | _ =>
    -- The walk reads no step behind the first one, so that is the name.
    cases steps with
    | nil =>
      obtain ⟨rfl, rfl⟩ := List.cons.inj hall
      exact ⟨_, _, .here, hwalk⟩
    | cons step steps =>
      obtain ⟨rfl, rfl⟩ := List.cons.inj hall
      rw [walk] at hwalk
      split_ifs at hwalk <;> simp_all

theorem way_concat_dot_iff {t : FileTree} {links : Nat} {place goal : Place} {steps : List String} :
    t.Way links place (steps ++ ["."]) goal ↔ t.Way links place steps goal := by
  constructor
  · intro h
    generalize hall : steps ++ ["."] = all at h
    induction h generalizing steps with
    | here => simp at hall
    | stay h ih =>
      cases steps with
      | nil =>
        obtain ⟨-, rfl⟩ := List.cons.inj hall
        exact h
      | cons step steps =>
        obtain ⟨rfl, hrest⟩ := List.cons.inj hall
        exact .stay (ih hrest)
    | up h ih =>
      cases steps with
      | nil => simp at hall
      | cons step steps =>
        obtain ⟨rfl, hrest⟩ := List.cons.inj hall
        exact .up (ih hrest)
    | down hname hnode h ih =>
      cases steps with
      | nil => exact absurd (List.cons.inj hall).1.symm hname.not_dot
      | cons step steps =>
        obtain ⟨rfl, hrest⟩ := List.cons.inj hall
        exact .down hname hnode (ih hrest)
    | through hname hnode htarget h ih =>
      cases steps with
      | nil => exact absurd (List.cons.inj hall).1.symm hname.not_dot
      | cons step steps =>
        obtain ⟨rfl, rfl⟩ := List.cons.inj hall
        exact .through hname hnode htarget (ih (by simp))
  · intro h
    induction h with
    | here => exact .stay .here
    | stay _ ih => exact .stay ih
    | up _ ih => exact .up ih
    | down hname hnode _ ih => exact .down hname hnode ih
    | through hname hnode htarget _ ih => exact .through hname hnode htarget (by simpa using ih)

theorem Way.of_turns {t t' : FileTree} {links : Nat} {place goal : Place} {steps : List String}
    (h : t.Way links place steps goal)
    (hturns : ∀ place node, t.find? place = some node → node.turns = true →
      t'.find? place = some node) : t'.Way links place steps goal := by
  induction h with
  | here => exact .here
  | stay _ ih => exact .stay ih
  | up _ ih => exact .up ih
  | down hname hnode _ ih => exact .down hname (hturns _ _ hnode rfl) ih
  | through hname hnode htarget _ ih => exact .through hname (hturns _ _ hnode rfl) htarget ih

/-! ### Where a path leads -/

def startOf (t : FileTree) (p : FilePath) : Place :=
  if p.isAbsolute then [] else t.here

/-- Whether a path leads to a directory that stands at a place. -/
structure IsDirectoryAt (t : FileTree) (dir : FilePath) (place : Place) : Prop where
  no_zero : '\x00' ∉ dir.text.toList
  nonempty : dir.text ≠ ""
  short : dir.text.utf8ByteSize < maxPath
  start : t.find? (t.startOf dir) = some .directory
  way : t.Way maxLinks (t.startOf dir) dir.moves place
  directory : t.find? place = some .directory

theorem way_steps_iff {t : FileTree} {links : Nat} {place goal : Place} {p : FilePath} :
    t.Way links place p.steps goal ↔ t.Way links place p.moves goal := by
  rcases p.steps_eq with h | h <;> rw [h]
  exact way_concat_dot_iff

theorem find?_startOf {t : FileTree} {p : FilePath}
    (h : p.isAbsolute = true ∨ t.find? t.here = some .directory) :
    t.find? (t.startOf p) = some .directory := by
  unfold startOf
  split
  · rfl
  · rename_i hrelative
    exact h.resolve_left hrelative

theorem locate_eq_walk {t : FileTree} {p : FilePath} (hzero : '\x00' ∉ p.text.toList)
    (hne : p.text ≠ "") (hshort : p.text.utf8ByteSize < maxPath)
    (hstart : t.find? (t.startOf p) = some .directory) (follow : Bool) :
    t.locate p follow = t.walk follow maxLinks (t.startOf p) p.steps := by
  have hlong : ¬maxPath ≤ p.text.utf8ByteSize := by omega
  unfold startOf at hstart ⊢
  by_cases habsolute : p.isAbsolute = true
  · simp [locate, hzero, hne, hlong, habsolute]
  · rw [if_neg habsolute] at hstart ⊢
    simp [locate, hzero, hne, hlong, habsolute, hstart]

theorem walk_of_locate {t : FileTree} {p : FilePath} {follow : Bool} {place : Place}
    (h : t.locate p follow = .ok place) :
    ('\x00' ∉ p.text.toList ∧ p.text ≠ "" ∧ p.text.utf8ByteSize < maxPath) ∧
      t.find? (t.startOf p) = some .directory ∧
      t.walk follow maxLinks (t.startOf p) p.steps = .ok place := by
  have hzero : '\x00' ∉ p.text.toList := by
    intro hzero
    simp [locate, hzero] at h
  have hne : p.text ≠ "" := by
    intro hempty
    simp [locate, hempty] at h
  have hshort : ¬maxPath ≤ p.text.utf8ByteSize := by
    intro hlong
    simp [locate, hzero, hne, hlong] at h
  have hstart : t.find? (t.startOf p) = some .directory := by
    refine find?_startOf ?_
    by_contra hno
    obtain ⟨hrelative, hnowhere⟩ := not_or.1 hno
    simp [locate, hzero, hne, hshort, hrelative, hnowhere] at h
  rw [locate_eq_walk hzero hne (Nat.not_le.1 hshort) hstart] at h
  exact ⟨⟨hzero, hne, Nat.not_le.1 hshort⟩, hstart, h⟩

theorem status_of_locate {t : FileTree} {p : FilePath} {place : Place} {node : Node}
    (hlocate : t.locate p = .ok place) (hnode : t.find? place = some node) :
    t.status p = .ok node := by
  simp only [status, hlocate, hnode, bind, Except.bind, pure, Except.pure]

theorem reaches_of_locate {t : FileTree} {p : FilePath} {place : Place} {node : Node}
    (hlocate : t.locate p = .ok place) (hnode : t.find? place = some node) :
    t.reaches p = true := by
  rw [reaches, status_of_locate hlocate hnode, Except.toBool]

theorem canonical_of_locate {t : FileTree} {p : FilePath} {place : Place} {node : Node}
    (hlocate : t.locate p = .ok place) (hnode : t.find? place = some node) :
    t.canonical p = .ok place.path := by
  simp only [canonical, hlocate, hnode, bind, Except.bind, pure, Except.pure]

/-- A path leads to a directory at a place if the place is found and a directory stands there. -/
theorem isDirectoryAt_iff {t : FileTree} {dir : FilePath} {place : Place} :
    t.IsDirectoryAt dir place ↔ t.locate dir = .ok place ∧ t.find? place = some .directory := by
  constructor
  · intro h
    rw [locate_eq_walk h.no_zero h.nonempty h.short h.start]
    exact ⟨(way_steps_iff.2 h.way).walk_eq, h.directory⟩
  · rintro ⟨hlocate, hdirectory⟩
    obtain ⟨⟨hzero, hne, hshort⟩, hstart, hwalk⟩ := walk_of_locate hlocate
    exact ⟨hzero, hne, hshort, hstart, way_steps_iff.1 (way_of_walk hwalk hdirectory), hdirectory⟩

theorem isDirectory_iff {t : FileTree} {dir : FilePath} :
    t.isDirectory dir = true ↔ ∃ place, t.IsDirectoryAt dir place := by
  simp only [isDirectoryAt_iff, isDirectory, status, bind, Except.bind]
  cases hlocate : t.locate dir with
  | error cause => simp
  | ok place =>
    cases hnode : t.find? place with
    | none => simp [hnode]
    | some node => cases node <;> simp [hnode, pure, Except.pure]

theorem IsDirectoryAt.unique {t : FileTree} {dir : FilePath} {place place' : Place}
    (h : t.IsDirectoryAt dir place) (h' : t.IsDirectoryAt dir place') : place = place' :=
  Except.ok.inj ((isDirectoryAt_iff.1 h).1.symm.trans (isDirectoryAt_iff.1 h').1)

/-- A path leads to the same directory where the directories and links of a tree stay. -/
theorem IsDirectoryAt.of_turns {t t' : FileTree} {dir : FilePath} {place : Place}
    (h : t.IsDirectoryAt dir place) (hhere : t'.here = t.here)
    (hturns : ∀ place node, t.find? place = some node → node.turns = true →
      t'.find? place = some node) : t'.IsDirectoryAt dir place := by
  have hstart : t'.startOf dir = t.startOf dir := by rw [startOf, startOf, hhere]
  exact ⟨h.no_zero, h.nonempty, h.short, hstart ▸ hturns _ _ h.start rfl,
    hstart ▸ h.way.of_turns hturns, hturns _ _ h.directory rfl⟩

/-! ### Entries of a directory -/

/-- Whether neither the name of an entry nor its whole path is too long. -/
structure Fits (dir : FilePath) (name : String) : Prop where
  name_short : name.utf8ByteSize ≤ maxName
  path_short : (dir / name).text.utf8ByteSize < maxPath

instance (dir : FilePath) (name : String) : Decidable (Fits dir name) :=
  decidable_of_iff (name.utf8ByteSize ≤ maxName ∧ (dir / name).text.utf8ByteSize < maxPath)
    ⟨fun h => ⟨h.1, h.2⟩, fun h => ⟨h.1, h.2⟩⟩

section Entries

variable {t : FileTree} {dir : FilePath} {place : Place} {name : String}

theorem startOf_join (h : t.IsDirectoryAt dir place) (hname : IsEntryName name) :
    t.startOf (dir / name) = t.startOf dir := by
  obtain ⟨c, r, hr⟩ := List.exists_cons_of_ne_nil (mt String.toList_eq_nil_iff.1 h.nonempty)
  have habsolute : (dir / name).isAbsolute = dir.isAbsolute := by
    simp only [FilePath.isAbsolute, Text.startsWith, dir.text_join hname h.nonempty]
    cases dir.endsInSlash <;> simp [hr, List.isPrefixOf]
  rw [startOf, startOf, habsolute]

theorem no_zero_join (h : t.IsDirectoryAt dir place) (hname : IsEntryName name) :
    '\x00' ∉ (dir / name).text.toList := by
  rw [dir.text_join hname h.nonempty]
  cases dir.endsInSlash <;> simp [h.no_zero, hname.no_zero]

theorem join_nonempty (h : t.IsDirectoryAt dir place) (hname : IsEntryName name) :
    (dir / name).text ≠ "" := by
  rw [dir.text_join hname h.nonempty]
  cases dir.endsInSlash <;> simp [h.nonempty]

theorem locate_join (h : t.IsDirectoryAt dir place) (hname : IsEntryName name)
    (hshort : (dir / name).text.utf8ByteSize < maxPath) {follow : Bool}
    {found : Except Failure Place} (hfound : ∀ links, t.walk follow links place [name] = found) :
    t.locate (dir / name) follow = found := by
  have hstart := startOf_join h hname
  rw [locate_eq_walk (no_zero_join h hname) (join_nonempty h hname) hshort (hstart ▸ h.start),
    hstart, dir.steps_join hname h.nonempty]
  exact h.way.walk_append (by simp) hfound

/-- An entry of a directory is found where it stands, if it is no link. -/
theorem locate_entry (h : t.IsDirectoryAt dir place) (hname : IsEntryName name)
    (hfits : Fits dir name) (hlink : ∀ target, t.find? (name :: place) ≠ some (.link target))
    (follow : Bool) : t.locate (dir / name) follow = .ok (name :: place) :=
  locate_join h hname hfits.path_short fun links =>
    t.walk_name follow links ⟨hname.not_dot, hname.not_dots, Nat.not_lt.2 hfits.name_short⟩ hlink

theorem locate_entry_itself (h : t.IsDirectoryAt dir place) (hname : IsEntryName name)
    (hfits : Fits dir name) : t.locate (dir / name) false = .ok (name :: place) :=
  locate_join h hname hfits.path_short fun links =>
    t.walk_name_itself links ⟨hname.not_dot, hname.not_dots, Nat.not_lt.2 hfits.name_short⟩

theorem locate_entry_of_not_fits (h : t.IsDirectoryAt dir place) (hname : IsEntryName name)
    (hfits : ¬Fits dir name) (follow : Bool) :
    t.locate (dir / name) follow = .error .nameTooLong := by
  by_cases hshort : (dir / name).text.utf8ByteSize < maxPath
  · have hlong : maxName < name.utf8ByteSize := by
      by_contra hlong
      exact hfits ⟨Nat.not_lt.1 hlong, hshort⟩
    refine locate_join h hname hshort fun links => ?_
    rw [walk, if_neg hname.not_dot, if_neg hname.not_dots, if_pos hlong]
  · have hlong : maxPath ≤ (dir / name).text.utf8ByteSize := Nat.not_lt.1 hshort
    simp [locate, no_zero_join h hname, join_nonempty h hname, hlong]

end Entries

end FileTree

end SnippetLens.Files
