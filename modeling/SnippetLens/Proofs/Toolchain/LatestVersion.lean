import Mathlib.Data.List.Induction
import SnippetLens.Proofs.Files.Reordered
import SnippetLens.Proofs.Toolchain.Version
import SnippetLens.Toolchain.Discovery

/-!
The version that is taken is a greatest one.

Going through a list, the greatest entry so far is kept. As the order of keys is total and
transitive, no entry exceeds the one that is left at the end, and if no two entries have the same
key there is only one such entry. So the answer is told by what is in the list, and neither the
order in which a directory lists its entries nor an entry that is no version has a part in it.
-/

namespace SnippetLens.Toolchain

open Files

/-! ### The greatest of a list -/

section Greatest

variable {α : Type} {key : α → VersionKey} {entries entries' : List α} {e : α}

/-- Whether an entry of a list has a key that no other one exceeds. -/
structure IsLatest (key : α → VersionKey) (entries : List α) (e : α) : Prop where
  mem : e ∈ entries
  isLE : ∀ other ∈ entries, ((key other).compareTo (key e)).isLE = true

theorem greatest?_concat (key : α → VersionKey) (entries : List α) (e : α) :
    greatest? key (entries ++ [e]) =
      match greatest? key entries with
      | none => some e
      | some best => if (key e).compareTo (key best) = .lt then some best else some e := by
  rw [greatest?, List.foldl_append]
  rfl

theorem greatest?_eq_none_iff : greatest? key entries = none ↔ entries = [] := by
  induction entries using List.reverseRecOn with
  | nil => exact iff_of_true rfl rfl
  | append_singleton entries e ih =>
    rw [greatest?_concat]
    refine iff_of_false ?_ (by simp)
    cases greatest? key entries with
    | none => simp
    | some best =>
      dsimp only
      split <;> simp

theorem isLatest_singleton (key : α → VersionKey) (e : α) : IsLatest key [e] e where
  mem := by simp
  isLE other hother := by
    rw [List.mem_singleton.1 hother]
    exact Std.ReflCmp.isLE_rfl

theorem IsLatest.concat_of_lt {best : α} (h : IsLatest key entries best)
    (hlt : (key e).compareTo (key best) = .lt) : IsLatest key (entries ++ [e]) best where
  mem := List.mem_append_left _ h.mem
  isLE other hother := by
    rcases List.mem_append.1 hother with hother | hother
    · exact h.isLE other hother
    · rw [List.mem_singleton.1 hother, hlt]
      rfl

theorem IsLatest.concat_of_not_lt {best : α} (h : IsLatest key entries best)
    (hge : (key e).compareTo (key best) ≠ .lt) : IsLatest key (entries ++ [e]) e where
  mem := by simp
  isLE other hother := by
    have hbest : ((key best).compareTo (key e)).isLE = true := by
      by_contra hlt
      exact hge (Std.OrientedCmp.lt_of_not_isLE hlt)
    rcases List.mem_append.1 hother with hother | hother
    · exact Std.TransCmp.isLE_trans (h.isLE other hother) hbest
    · rw [List.mem_singleton.1 hother]
      exact Std.ReflCmp.isLE_rfl

/-- What is left at the end is not exceeded by anything that was gone through. -/
theorem isLatest_of_greatest? (h : greatest? key entries = some e) : IsLatest key entries e := by
  induction entries using List.reverseRecOn generalizing e with
  | nil => cases h
  | append_singleton entries last ih =>
    rw [greatest?_concat] at h
    cases hbest : greatest? key entries with
    | none =>
      obtain rfl := greatest?_eq_none_iff.1 hbest
      simp only [hbest, Option.some.injEq] at h
      exact h ▸ isLatest_singleton key last
    | some best =>
      -- The last entry stands against the greatest of those before it.
      simp only [hbest] at h
      split at h
      · rename_i hlt
        obtain rfl := Option.some.inj h
        exact (ih hbest).concat_of_lt hlt
      · rename_i hge
        obtain rfl := Option.some.inj h
        exact (ih hbest).concat_of_not_lt hge

theorem IsLatest.key_eq {e' : α} (h : IsLatest key entries e) (h' : IsLatest key entries e') :
    key e = key e' :=
  Std.LawfulEqCmp.eq_of_compare
    (Std.OrientedCmp.isLE_antisymm (h'.isLE e h.mem) (h.isLE e' h'.mem))

/-- Where no two entries have the same key, the greatest is told by what is in the list. -/
theorem greatest?_eq_of_mem_iff
    (hkeys : ∀ e ∈ entries, ∀ e' ∈ entries, key e = key e' → e = e')
    (hmem : ∀ e, e ∈ entries ↔ e ∈ entries') : greatest? key entries = greatest? key entries' := by
  cases hbest : greatest? key entries with
  | none =>
    obtain rfl := greatest?_eq_none_iff.1 hbest
    refine (greatest?_eq_none_iff.2 (List.eq_nil_iff_forall_not_mem.2 fun e he => ?_)).symm
    simpa using (hmem e).2 he
  | some best =>
    have hlatest := isLatest_of_greatest? hbest
    cases hbest' : greatest? key entries' with
    | none =>
      obtain rfl := greatest?_eq_none_iff.1 hbest'
      simpa using (hmem best).1 hlatest.mem
    | some best' =>
      have hlatest' := isLatest_of_greatest? hbest'
      have hthere : IsLatest key entries best' :=
        ⟨(hmem best').2 hlatest'.mem, fun other hother =>
          hlatest'.isLE other ((hmem other).1 hother)⟩
      rw [hkeys best hlatest.mem best' hthere.mem (hlatest.key_eq hthere)]

/-- A release comes after its pre-releases, wherever they stand. -/
example : greatest? VersionKey.ofName ["34.0.0", "35.0.0", "35.0.0-rc1"] = some "35.0.0" := by
  decide

end Greatest

/-! ### Installed versions -/

section Installed

variable {files : FileTree} {root : FilePath} {versionOf : String → Option String}
  {entries : List (Option String)} {name : String}

/-- Whether an entry of a directory is an installed version: it has a name that leads to a
directory, through a link or not, and that is accepted with the version. -/
structure IsInstalled (files : FileTree) (root : FilePath) (versionOf : String → Option String)
    (entries : List (Option String)) (name version : String) : Prop where
  listed : some name ∈ entries
  directory : files.isDirectory (root / name) = true
  accepted : versionOf name = some version

/-- Whether no two of the installed versions among the entries have the same key. -/
def HasDistinctKeys (files : FileTree) (root : FilePath) (versionOf : String → Option String)
    (entries : List (Option String)) : Prop :=
  ∀ name version name' version', IsInstalled files root versionOf entries name version →
    IsInstalled files root versionOf entries name' version' →
      VersionKey.ofName version = VersionKey.ofName version' → name = name'

theorem installedVersion?_eq_some_iff {found : VersionKey × FilePath} :
    installedVersion? files root versionOf name = some found ↔
      files.isDirectory (root / name) = true ∧
        ∃ version, versionOf name = some version ∧
          found = (VersionKey.ofName version, root / name) := by
  unfold installedVersion?
  split
  · rename_i hdirectory
    rw [Option.map_eq_some_iff]
    simp [hdirectory, eq_comm]
  · rename_i hdirectory
    simp [hdirectory]

theorem mem_versionsAmong_iff {found : VersionKey × FilePath} :
    found ∈ versionsAmong files root versionOf entries ↔
      ∃ name version, IsInstalled files root versionOf entries name version ∧
        found = (VersionKey.ofName version, root / name) := by
  simp only [versionsAmong, List.mem_filterMap, Option.bind_eq_some_iff,
    installedVersion?_eq_some_iff]
  constructor
  · rintro ⟨_, hlisted, name, rfl, hdirectory, version, haccepted, rfl⟩
    exact ⟨name, version, ⟨hlisted, hdirectory, haccepted⟩, rfl⟩
  · rintro ⟨name, version, h, rfl⟩
    exact ⟨some name, h.listed, name, rfl, h.directory, version, h.accepted, rfl⟩

/-- An entry that is no version can be left out wherever it stands. -/
theorem versionsAmong_append_cons {entry : Option String} (front back : List (Option String))
    (h : ∀ name, entry = some name →
      files.isDirectory (root / name) = false ∨ versionOf name = none) :
    versionsAmong files root versionOf (front ++ entry :: back) =
      versionsAmong files root versionOf (front ++ back) := by
  have hnone : entry.bind (installedVersion? files root versionOf) = none := by
    rw [Option.bind_eq_none_iff]
    intro name hname
    rcases h name hname with hno | hno <;> simp [installedVersion?, hno]
  simp [versionsAmong, hnone]

theorem HasDistinctKeys.eq_of_key_eq (h : HasDistinctKeys files root versionOf entries) :
    ∀ found ∈ versionsAmong files root versionOf entries,
      ∀ found' ∈ versionsAmong files root versionOf entries, found.1 = found'.1 →
        found = found' := by
  intro found hfound found' hfound' hkey
  obtain ⟨name, version, hinstalled, rfl⟩ := mem_versionsAmong_iff.1 hfound
  obtain ⟨name', version', hinstalled', rfl⟩ := mem_versionsAmong_iff.1 hfound'
  obtain rfl := h _ _ _ _ hinstalled hinstalled' hkey
  exact Prod.ext hkey rfl

end Installed

/-! ### The answer -/

section Answer

variable {files other : FileTree} {root : FilePath} {versionOf : String → Option String}
  {entries entries' : List (Option String)}

theorem latestAmong_ok (kind : String) (h : files.isDirectory root = true) :
    latestAmong files root kind versionOf (.ok entries) =
      match greatest? (·.1) (versionsAmong files root versionOf entries) with
      | some found => .ok found.2
      | none => .error (.noVersion kind root) :=
  if_pos h

theorem latestAmong_of_not_isDirectory (kind : String) (h : files.isDirectory root = false)
    (listing : Except Failure (List (Option String))) :
    latestAmong files root kind versionOf listing = .error (.noVersion kind root) := by
  simp [latestAmong, h]

theorem latestAmong_eq_noVersion_iff (kind : String) :
    latestAmong files root kind versionOf (.ok entries) = .error (.noVersion kind root) ↔
      files.isDirectory root = false ∨
        ∀ name version, ¬IsInstalled files root versionOf entries name version := by
  cases hroot : files.isDirectory root with
  | false => simp [latestAmong_of_not_isDirectory kind hroot]
  | true =>
    have hnone : (∀ name version, ¬IsInstalled files root versionOf entries name version) ↔
        greatest? (·.1) (versionsAmong files root versionOf entries) = none := by
      rw [greatest?_eq_none_iff, List.eq_nil_iff_forall_not_mem]
      constructor
      · intro hno found hfound
        obtain ⟨name, version, hinstalled, -⟩ := mem_versionsAmong_iff.1 hfound
        exact hno name version hinstalled
      · intro hno name version hinstalled
        exact hno _ (mem_versionsAmong_iff.2 ⟨name, version, hinstalled, rfl⟩)
    rw [latestAmong_ok kind hroot, hnone]
    cases greatest? (·.1) (versionsAmong files root versionOf entries) <;> simp

theorem exists_latestAmong_eq_ok (kind : String) (hroot : files.isDirectory root = true)
    (h : ∃ name version, IsInstalled files root versionOf entries name version) :
    ∃ name version, IsInstalled files root versionOf entries name version ∧
      latestAmong files root kind versionOf (.ok entries) = .ok (root / name) ∧
      ∀ name' version', IsInstalled files root versionOf entries name' version' →
        ((VersionKey.ofName version').compareTo (VersionKey.ofName version)).isLE = true := by
  obtain ⟨name, version, hinstalled⟩ := h
  cases hbest : greatest? (·.1) (versionsAmong files root versionOf entries) with
  | none =>
    have hfound := mem_versionsAmong_iff.2 ⟨name, version, hinstalled, rfl⟩
    rw [greatest?_eq_none_iff.1 hbest] at hfound
    cases hfound
  | some best =>
    have hlatest := isLatest_of_greatest? hbest
    obtain ⟨name, version, hinstalled, rfl⟩ := mem_versionsAmong_iff.1 hlatest.mem
    refine ⟨name, version, hinstalled, by rw [latestAmong_ok kind hroot, hbest], ?_⟩
    intro name' version' hinstalled'
    exact hlatest.isLE _ (mem_versionsAmong_iff.2 ⟨name', version', hinstalled', rfl⟩)

theorem latestAmong_append_cons (kind : String) {entry : Option String}
    (front back : List (Option String))
    (h : ∀ name, entry = some name →
      files.isDirectory (root / name) = false ∨ versionOf name = none) :
    latestAmong files root kind versionOf (.ok (front ++ entry :: back)) =
      latestAmong files root kind versionOf (.ok (front ++ back)) := by
  simp only [latestAmong, versionsAmong_append_cons front back h]

theorem latestAmong_eq_of_perm (kind : String) (h : entries.Perm entries')
    (hkeys : HasDistinctKeys files root versionOf entries) :
    latestAmong files root kind versionOf (.ok entries) =
      latestAmong files root kind versionOf (.ok entries') := by
  have hbest : greatest? (·.1) (versionsAmong files root versionOf entries) =
      greatest? (·.1) (versionsAmong files root versionOf entries') :=
    greatest?_eq_of_mem_iff hkeys.eq_of_key_eq fun found => (h.filterMap _).mem_iff
  simp only [latestAmong, hbest]

theorem latestVersion_of_isDirectoryAt (kind : String) {place : Place}
    (h : files.IsDirectoryAt root place) :
    latestVersion files root kind versionOf =
      latestAmong files root kind versionOf (.ok ((files.namesIn place).map some)) := by
  rw [latestVersion, FileTree.list_eq_ok_iff.2 ⟨place, h, rfl⟩]
  rfl

/-- The version that is taken from a tree is the one among the names that the tree lists. -/
theorem latestVersion_eq_latestAmong (kind : String) {names : List String}
    (h : ∀ place, files.IsDirectoryAt root place → files.namesIn place = names) :
    latestVersion files root kind versionOf =
      latestAmong files root kind versionOf (.ok (names.map some)) := by
  cases hroot : files.isDirectory root with
  | false => rw [latestVersion, latestAmong_of_not_isDirectory kind hroot,
      latestAmong_of_not_isDirectory kind hroot]
  | true =>
    obtain ⟨place, hplace⟩ := FileTree.isDirectory_iff.1 hroot
    rw [latestVersion_of_isDirectoryAt kind hplace, h place hplace]

theorem versionsAmong_eq_of_reordered (h : files.Reordered other) :
    versionsAmong other root versionOf entries = versionsAmong files root versionOf entries := by
  have hversion :
      installedVersion? other root versionOf = installedVersion? files root versionOf := by
    funext name
    rw [installedVersion?, installedVersion?, h.isDirectory_eq]
  rw [versionsAmong, versionsAmong, hversion]

theorem latestVersion_eq_of_reordered (kind : String) (h : files.Reordered other)
    (hkeys : ∀ place, files.IsDirectoryAt root place →
      HasDistinctKeys files root versionOf ((files.namesIn place).map some)) :
    latestVersion other root kind versionOf = latestVersion files root kind versionOf := by
  cases hroot : files.isDirectory root with
  | false =>
    have hroot' : other.isDirectory root = false := (h.isDirectory_eq root).trans hroot
    rw [latestVersion, latestVersion, latestAmong_of_not_isDirectory kind hroot,
      latestAmong_of_not_isDirectory kind hroot']
  | true =>
    obtain ⟨place, hplace⟩ := FileTree.isDirectory_iff.1 hroot
    have hperm := (h.namesIn_perm place).map some
    calc latestVersion other root kind versionOf
        = latestAmong other root kind versionOf (.ok ((other.namesIn place).map some)) :=
          latestVersion_of_isDirectoryAt kind (h.isDirectoryAt hplace)
      _ = latestAmong files root kind versionOf (.ok ((other.namesIn place).map some)) := by
          simp only [latestAmong, h.isDirectory_eq, versionsAmong_eq_of_reordered h]
      _ = latestAmong files root kind versionOf (.ok ((files.namesIn place).map some)) :=
          (latestAmong_eq_of_perm kind hperm (hkeys place hplace)).symm
      _ = latestVersion files root kind versionOf :=
          (latestVersion_of_isDirectoryAt kind hplace).symm

end Answer

/-- The version of a platform is what follows the beginning of its name. -/
theorem platformVersion?_eq_some_iff {name version : String} :
    platformVersion? name = some version ↔ name = "android-" ++ version := by
  simp only [platformVersion?, Option.map_eq_some_iff, Text.after?_eq_some_iff]
  constructor
  · rintro ⟨rest, hname, rfl⟩
    exact String.toList_inj.1 (by simpa using hname)
  · rintro rfl
    exact ⟨version.toList, by simp, by simp⟩

/-- A greatest of the installed versions is taken, and none is found only where none is installed.
Where no two have the same key, the order in which they are listed has no part in the answer, and an
entry that is no version never has. -/
theorem latestVersion_is_greatest (files : FileTree) (root : FilePath) (kind : String)
    (versionOf : String → Option String) :
    (∀ entries,
      latestAmong files root kind versionOf (.ok entries) = .error (.noVersion kind root) ↔
        files.isDirectory root = false ∨
          ∀ name version, ¬IsInstalled files root versionOf entries name version) ∧
    (∀ entries, files.isDirectory root = true →
      (∃ name version, IsInstalled files root versionOf entries name version) →
        ∃ name version, IsInstalled files root versionOf entries name version ∧
          latestAmong files root kind versionOf (.ok entries) = .ok (root / name) ∧
          ∀ name' version', IsInstalled files root versionOf entries name' version' →
            ((VersionKey.ofName version').compareTo (VersionKey.ofName version)).isLE = true) ∧
    (∀ front entry back,
      (∀ name, entry = some name →
        files.isDirectory (root / name) = false ∨ versionOf name = none) →
      latestAmong files root kind versionOf (.ok (front ++ entry :: back)) =
        latestAmong files root kind versionOf (.ok (front ++ back))) ∧
    (∀ entries entries', entries.Perm entries' → HasDistinctKeys files root versionOf entries →
      latestAmong files root kind versionOf (.ok entries) =
        latestAmong files root kind versionOf (.ok entries')) ∧
    (∀ names, (∀ place, files.IsDirectoryAt root place → files.namesIn place = names) →
      latestVersion files root kind versionOf =
        latestAmong files root kind versionOf (.ok (names.map some))) ∧
    (∀ other, files.Reordered other →
      (∀ place, files.IsDirectoryAt root place →
        HasDistinctKeys files root versionOf ((files.namesIn place).map some)) →
      latestVersion other root kind versionOf = latestVersion files root kind versionOf) ∧
    (∀ name version, platformVersion? name = some version ↔ name = "android-" ++ version) :=
  ⟨fun _ => latestAmong_eq_noVersion_iff kind, fun _ => exists_latestAmong_eq_ok kind,
    fun front _ back => latestAmong_append_cons kind front back,
    fun _ _ => latestAmong_eq_of_perm kind, fun _ => latestVersion_eq_latestAmong kind,
    fun _ => latestVersion_eq_of_reordered kind, fun _ _ => platformVersion?_eq_some_iff⟩


/-! ### Two platforms, the later one a link -/

def smallPlatforms : FileTree where
  nodes :=
    [(["b"], .directory), (["android-34", "b"], .link ⟨"/p"⟩), (["android-9", "b"], .directory),
      (["p"], .directory)]
  here := []

def smallRoot : FilePath := ⟨"/b"⟩

theorem isDirectoryAt_smallRoot : smallPlatforms.IsDirectoryAt smallRoot ["b"] := by
  have hsteps : smallRoot.steps = ["b"] := by decide
  have hname : ¬FileTree.maxName < "b".utf8ByteSize := by decide
  refine FileTree.isDirectoryAt_iff.2 ⟨?_, by decide⟩
  rw [FileTree.locate_of_isAbsolute _ (by decide) (by decide) (by decide), hsteps]
  simp [FileTree.walk, FileTree.find?, smallPlatforms, hname]

theorem isInstalled_directory :
    IsInstalled smallPlatforms smallRoot platformVersion? [some "android-34", some "android-9"]
      "android-9" "9" where
  listed := by decide
  directory := by
    have hsteps : (smallRoot / "android-9").steps = ["b", "android-9"] := by decide
    have hdir : ¬FileTree.maxName < "b".utf8ByteSize := by decide
    have hname : ¬FileTree.maxName < "android-9".utf8ByteSize := by decide
    refine FileTree.isDirectory_iff.2
      ⟨["android-9", "b"], FileTree.isDirectoryAt_iff.2 ⟨?_, by decide⟩⟩
    rw [FileTree.locate_of_isAbsolute _ (by decide) (by decide) (by decide), hsteps]
    simp [FileTree.walk, FileTree.find?, smallPlatforms, hdir, hname]
  accepted := by decide

theorem isInstalled_link :
    IsInstalled smallPlatforms smallRoot platformVersion? [some "android-34", some "android-9"]
      "android-34" "34" where
  listed := by decide
  directory := by
    have hsteps : (smallRoot / "android-34").steps = ["b", "android-34"] := by decide
    have htarget : (⟨"/p"⟩ : FilePath).steps = ["p"] := by decide
    have habsolute : (⟨"/p"⟩ : FilePath).isAbsolute = true := by decide
    have hdir : ¬FileTree.maxName < "b".utf8ByteSize := by decide
    have hlink : ¬FileTree.maxName < "p".utf8ByteSize := by decide
    have hname : ¬FileTree.maxName < "android-34".utf8ByteSize := by decide
    refine FileTree.isDirectory_iff.2 ⟨["p"], FileTree.isDirectoryAt_iff.2 ⟨?_, by decide⟩⟩
    rw [FileTree.locate_of_isAbsolute _ (by decide) (by decide) (by decide), hsteps]
    simp [FileTree.walk, FileTree.find?, FileTree.maxLinks, smallPlatforms, hdir, hname, hlink,
      htarget, habsolute]
  accepted := by decide

theorem eq_of_isInstalled_smallPlatforms {name version : String}
    (h : IsInstalled smallPlatforms smallRoot platformVersion?
      [some "android-34", some "android-9"] name version) :
    name = "android-34" ∧ version = "34" ∨ name = "android-9" ∧ version = "9" := by
  have haccepted := h.accepted
  have hlisted := h.listed
  simp only [List.mem_cons, Option.some.injEq, List.not_mem_nil, or_false] at hlisted
  rcases hlisted with rfl | rfl
  · exact .inl ⟨rfl, Option.some.inj (haccepted.symm.trans isInstalled_link.accepted)⟩
  · exact .inr ⟨rfl, Option.some.inj (haccepted.symm.trans isInstalled_directory.accepted)⟩

theorem hasDistinctKeys_smallPlatforms :
    HasDistinctKeys smallPlatforms smallRoot platformVersion?
      [some "android-34", some "android-9"] := by
  have hkey : VersionKey.ofName "34" ≠ VersionKey.ofName "9" := by decide
  intro name version name' version' h h' hsame
  rcases eq_of_isInstalled_smallPlatforms h with ⟨rfl, rfl⟩ | ⟨rfl, rfl⟩ <;>
    rcases eq_of_isInstalled_smallPlatforms h' with ⟨rfl, rfl⟩ | ⟨rfl, rfl⟩
  · rfl
  · exact absurd hsame hkey
  · exact absurd hsame.symm hkey
  · rfl

/-- The link is taken, as 34 comes after 9, also from the tree that lists it last and next to an
entry that could not be read. -/
theorem latestVersion_smallPlatforms :
    latestVersion smallPlatforms smallRoot "platform" platformVersion? =
        .ok (smallRoot / "android-34") ∧
      latestVersion { smallPlatforms with nodes := smallPlatforms.nodes.reverse } smallRoot
        "platform" platformVersion? = .ok (smallRoot / "android-34") ∧
      latestAmong smallPlatforms smallRoot "platform" platformVersion?
        (.ok [some "android-9", none, some "android-34"]) = .ok (smallRoot / "android-34") := by
  obtain ⟨-, hgreatest, hskip, hperm, hlist, hreordered, -⟩ :=
    latestVersion_is_greatest smallPlatforms smallRoot "platform" platformVersion?
  have hnames :
      (smallPlatforms.namesIn ["b"]).map some = [some "android-34", some "android-9"] := by
    decide
  have hreverse : smallPlatforms.Reordered
      { smallPlatforms with nodes := smallPlatforms.nodes.reverse } :=
    ⟨rfl, (List.reverse_perm _).symm, by decide⟩
  have hkeys : ∀ place, smallPlatforms.IsDirectoryAt smallRoot place →
      HasDistinctKeys smallPlatforms smallRoot platformVersion?
        ((smallPlatforms.namesIn place).map some) := by
    intro place hplace
    rw [hplace.unique isDirectoryAt_smallRoot, hnames]
    exact hasDistinctKeys_smallPlatforms
  have hlatest : latestAmong smallPlatforms smallRoot "platform" platformVersion?
      (.ok [some "android-34", some "android-9"]) = .ok (smallRoot / "android-34") := by
    obtain ⟨name, version, hinstalled, hok, hmost⟩ :=
      hgreatest _ (FileTree.isDirectory_iff.2 ⟨_, isDirectoryAt_smallRoot⟩)
        ⟨_, _, isInstalled_directory⟩
    rcases eq_of_isInstalled_smallPlatforms hinstalled with ⟨rfl, rfl⟩ | ⟨rfl, rfl⟩
    · exact hok
    · exact absurd (hmost _ _ isInstalled_link) (by decide +kernel)
  have hversion := (hlist (smallPlatforms.namesIn ["b"]) fun place hplace => by
    rw [hplace.unique isDirectoryAt_smallRoot]).trans (hnames ▸ hlatest)
  refine ⟨hversion, (hreordered _ hreverse hkeys).trans hversion, ?_⟩
  calc latestAmong smallPlatforms smallRoot "platform" platformVersion?
        (.ok ([some "android-9"] ++ none :: [some "android-34"]))
      = latestAmong smallPlatforms smallRoot "platform" platformVersion?
          (.ok [some "android-9", some "android-34"]) := hskip _ _ _ fun _ h => by cases h
    _ = latestAmong smallPlatforms smallRoot "platform" platformVersion?
          (.ok [some "android-34", some "android-9"]) :=
        (hperm _ _ (List.Perm.swap ..) hasDistinctKeys_smallPlatforms).symm
    _ = .ok (smallRoot / "android-34") := hlatest

end SnippetLens.Toolchain
