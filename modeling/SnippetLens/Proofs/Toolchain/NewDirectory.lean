import SnippetLens.Proofs.Files.NewDirectory
import SnippetLens.Proofs.Toolchain.LatestVersion
import SnippetLens.Toolchain.Directories

/-!
The scratch directory of a process is not seen when the toolchain is looked for.

The directory is named after the number of the process. Where nothing in the tree has that name and
no path of the environment or of the configuration mentions it, every path that is looked at on the
way to the toolchain avoids the name. So the toolchain is found as if the directory had not been
made, and its locations are missing or not as before.
-/

namespace SnippetLens.Toolchain

open Files

def scratchName (number : String) : String :=
  "kexp-" ++ number

def Environment.texts (env : Environment) : List String :=
  env.vars.map (·.2) ++ (env.accountHome.map (·.text)).toList

def Hints.texts (hints : Hints) : List String :=
  ([hints.androidHome, hints.kotlinHome, hints.javaHome].filterMap id).map (·.text) ++
    [hints.buildTools, hints.platform].filterMap id

/-- Whether the toolchain is looked for without the name of a scratch directory in `above`, which the
Android distribution does not have as the directory of its build tools. -/
structure IsUnasked (env : Environment) (hints : Hints) (files : FileTree) (above : Place)
    (number : String) : Prop where
  isNew : files.IsNew (scratchName number)
  unnamed : ∀ text ∈ env.texts, Unmentioned (scratchName number) text
  unhinted : ∀ text ∈ hints.texts, Unmentioned (scratchName number) text
  apart : ∀ home, hints.androidHome.or
    (env.firstDirectory? files ["ANDROID_HOME", "ANDROID_SDK_ROOT"]) = some home →
      ¬files.IsDirectoryAt (home / "build-tools") above

/-! ### Paths that are looked at -/

/-- The names that are put behind a path on the way to the toolchain. -/
def fixedNames : List String :=
  ["bin", "java", "kotlinc", "lib", "d8.jar", "android.jar", "platform-tools", "adb", "dexdump",
    "build-tools", "platforms"] ++ Locations.runtimeJarNames

theorem avoids_fixed {name : String} (h : name ∈ fixedNames) (number : String) :
    (⟨name⟩ : FilePath).Avoids (scratchName number) := by
  have hall : ∀ name ∈ fixedNames, IsEntryName name ∧ Text.startsWith "kexp-" name = false := by
    decide
  obtain ⟨hentry, hunlike⟩ := hall name h
  refine FilePath.avoids_entry hentry ?_
  rintro rfl
  have hstarts : Text.startsWith "kexp-" (scratchName number) = true := by
    simp [Text.startsWith, scratchName]
  rw [hstarts] at hunlike
  cases hunlike

theorem Avoids.join_fixed {p : FilePath} {number name : String} (h : p.Avoids (scratchName number))
    (hname : name ∈ fixedNames) : (p / name).Avoids (scratchName number) :=
  h.join (avoids_fixed hname number)

theorem platformVersion?_scratchName (number : String) :
    platformVersion? (scratchName number) = none := by
  rw [Option.eq_none_iff_forall_ne_some]
  intro version hversion
  have hname := congrArg String.toList (platformVersion?_eq_some_iff.1 hversion)
  simp [scratchName] at hname

theorem exists_get?_of_firstDirectory? {env : Environment} {files : FileTree} {names : List String}
    {p : FilePath} (h : env.firstDirectory? files names = some p) :
    ∃ name, env.get? name = some p.text := by
  obtain ⟨name, -, hname⟩ := List.mem_filterMap.1 (List.mem_of_find?_eq_some h)
  obtain ⟨value, hvalue, rfl⟩ := Option.map_eq_some_iff.1 hname
  exact ⟨name, hvalue⟩

theorem infix_of_mem_splitColons {cs part : List Char} (h : part ∈ Environment.splitColons cs) :
    part <:+: cs :=
  infix_of_mem_split rfl (fun c r first others hr => by rw [Environment.splitColons, hr]) h

theorem avoids_runtimeJarsIn {files : FileTree} {number : String} {kotlin jar : FilePath}
    (hkotlin : kotlin.Avoids (scratchName number))
    (hjar : jar ∈ Locations.runtimeJarsIn files kotlin) : jar.Avoids (scratchName number) := by
  have hall : ∃ name ∈ Locations.runtimeJarNames, kotlin / "lib" / name = jar := by
    unfold Locations.runtimeJarsIn at hjar
    dsimp only at hjar
    split at hjar
    · obtain ⟨name, hname, hsame⟩ := List.mem_map.1 hjar
      exact ⟨name, List.mem_of_mem_take hname, hsame⟩
    · exact List.mem_map.1 (List.mem_of_mem_filter hjar)
  obtain ⟨name, hname, rfl⟩ := hall
  exact Avoids.join_fixed (Avoids.join_fixed hkotlin (by decide)) (List.mem_append_right _ hname)

/-- The directory of a pinned version, or of the greatest one that is installed. -/
def versionDirectory (files : FileTree) (root : FilePath) (kind : String)
    (versionOf : String → Option String) : Option String → Except DiscoveryError FilePath
  | some version => .ok (root / version)
  | none => latestVersion files root kind versionOf

def androidHome? (env : Environment) (files : FileTree) (hints : Hints) : Option FilePath :=
  hints.androidHome.or (env.firstDirectory? files ["ANDROID_HOME", "ANDROID_SDK_ROOT"])

def kotlinHome? (env : Environment) (files : FileTree) (hints : Hints) : Option FilePath :=
  (hints.kotlinHome.or (env.firstDirectory? files ["KOTLIN_HOME"])).or (kotlinOnPath? env files)

theorem discover_eq (env : Environment) (files : FileTree) (hints : Hints) (scratch : FilePath) :
    discover env files hints scratch = do
      let android ← (androidHome? env files hints).elim (.error .androidMissing) .ok
      let kotlin ← (kotlinHome? env files hints).elim (.error .kotlinMissing) .ok
      let tools ← versionDirectory files (android / "build-tools") "build-tools" some
        hints.buildTools
      let platform ← versionDirectory files (android / "platforms") "platform" platformVersion?
        hints.platform
      return .ofLayout files android kotlin (findJava env files hints.javaHome) tools platform
        scratch := by
  unfold discover androidHome? kotlinHome?
  cases hints.androidHome.or (env.firstDirectory? files ["ANDROID_HOME", "ANDROID_SDK_ROOT"]) with
  | none => rfl
  | some android =>
    cases (hints.kotlinHome.or (env.firstDirectory? files ["KOTLIN_HOME"])).or
        (kotlinOnPath? env files) with
    | none => rfl
    | some kotlin => cases hints.buildTools <;> cases hints.platform <;> rfl

theorem exists_layout_of_discover {env : Environment} {files : FileTree} {hints : Hints}
    {scratch : FilePath} {l : Locations} (h : discover env files hints scratch = .ok l) :
    ∃ android kotlin tools platform,
      androidHome? env files hints = some android ∧ kotlinHome? env files hints = some kotlin ∧
      versionDirectory files (android / "build-tools") "build-tools" some hints.buildTools =
        .ok tools ∧
      versionDirectory files (android / "platforms") "platform" platformVersion? hints.platform =
        .ok platform ∧
      l = .ofLayout files android kotlin (findJava env files hints.javaHome) tools platform
        scratch := by
  rw [discover_eq] at h
  cases handroid : androidHome? env files hints with
  | none => simp [handroid, bind, Except.bind] at h
  | some android =>
    cases hkotlin : kotlinHome? env files hints with
    | none => simp [handroid, hkotlin, bind, Except.bind] at h
    | some kotlin =>
      simp only [handroid, hkotlin, Option.elim_some, bind, Except.bind] at h
      cases htools : versionDirectory files (android / "build-tools") "build-tools" some
          hints.buildTools with
      | error e => simp [htools] at h
      | ok tools =>
        cases hplatform : versionDirectory files (android / "platforms") "platform"
            platformVersion? hints.platform with
        | error e => simp [htools, hplatform] at h
        | ok platform =>
          simp only [htools, hplatform, pure, Except.pure, Except.ok.injEq] at h
          exact ⟨android, kotlin, tools, platform, rfl, rfl, htools, hplatform, h.symm⟩

/-- The labelled locations before the scratch directory, which is the last one. -/
def Locations.tools (l : Locations) : List (String × FilePath) :=
  l.labelled.dropLast

theorem Locations.labelled_eq (l : Locations) :
    l.labelled = l.tools ++ [("scratch dir", l.scratch)] := by
  rw [tools, labelled, List.dropLast_concat]

theorem Locations.mem_of_mem_tools {l : Locations} {entry : String × FilePath} :
    entry ∈ l.tools → entry.2 ∈ [l.kotlinc, l.java, l.optimizerJar, l.platformJar, l.adb,
      l.buildTools, l.dexdump] ∨ entry.2 ∈ l.runtimeJars := by
  rw [tools, labelled, List.dropLast_concat, List.mem_append]
  rintro (hentry | hentry)
  · exact .inl (List.mem_map_of_mem (f := (·.2)) hentry)
  · obtain ⟨jar, hjar, rfl⟩ := List.mem_map.1 hentry
    exact .inr hjar

theorem discover_scratch (env : Environment) (files : FileTree) (hints : Hints)
    (scratch other : FilePath) :
    discover env files hints other =
      (discover env files hints scratch).map fun l => { l with scratch := other } := by
  rw [discover_eq, discover_eq]
  cases androidHome? env files hints with
  | none => rfl
  | some android =>
    cases kotlinHome? env files hints with
    | none => rfl
    | some kotlin =>
      cases htools : versionDirectory files (android / "build-tools") "build-tools" some
          hints.buildTools with
      | error e => simp [htools, bind, Except.bind, Except.map]
      | ok tools =>
        cases hplatform : versionDirectory files (android / "platforms") "platform"
            platformVersion? hints.platform <;>
          simp [htools, hplatform, bind, Except.bind, pure, Except.pure, Except.map,
            Locations.ofLayout]

theorem find?_congr_of_mem {α : Type} {p q : α → Bool} {l : List α} (h : ∀ a ∈ l, p a = q a) :
    l.find? p = l.find? q := by
  induction l with
  | nil => rfl
  | cons a l ih =>
    obtain ⟨ha, hl⟩ := List.forall_mem_cons.1 h
    rw [List.find?_cons, List.find?_cons, ha, ih hl]

section IsUnasked

variable {env : Environment} {hints : Hints} {files : FileTree} {above : Place} {number : String}
  {node : Node} (h : IsUnasked env hints files above number)

include h

namespace IsUnasked

theorem unmentioned_get? {name value : String} (hvalue : env.get? name = some value) :
    Unmentioned (scratchName number) value := by
  obtain ⟨entry, hentry, rfl⟩ := Option.map_eq_some_iff.1 hvalue
  have hmem := List.mem_of_find?_eq_some hentry
  exact h.unnamed _ (List.mem_append_left _ (List.mem_map_of_mem hmem))

theorem avoids_firstDirectory? {names : List String} {p : FilePath}
    (hp : env.firstDirectory? files names = some p) : p.Avoids (scratchName number) := by
  obtain ⟨name, hname⟩ := exists_get?_of_firstDirectory? hp
  exact FilePath.avoids_of_unmentioned (h.unmentioned_get? hname)

theorem firstDirectory?_put (names : List String) :
    env.firstDirectory? (files.put (scratchName number :: above) node) names =
      env.firstDirectory? files names := by
  refine find?_congr_of_mem fun p hp => ?_
  obtain ⟨name, -, hname⟩ := List.mem_filterMap.1 hp
  obtain ⟨value, hvalue, rfl⟩ := Option.map_eq_some_iff.1 hname
  exact h.isNew.isDirectory_put (FilePath.avoids_of_unmentioned (h.unmentioned_get? hvalue))

/-! ### Programs on the search path -/

theorem avoids_home : ((((env.get? "HOME").map FilePath.mk).or env.accountHome).getD ⟨""⟩).Avoids
    (scratchName number) := by
  cases hhome : env.get? "HOME" with
  | some home =>
    have hvalue := h.unmentioned_get? hhome
    exact FilePath.avoids_of_unmentioned hvalue
  | none =>
    cases haccount : env.accountHome with
    | some home =>
      have hmem : home.text ∈ env.texts := by simp [Environment.texts, haccount]
      exact FilePath.avoids_of_unmentioned (h.unnamed _ hmem)
    | none =>
      show (scratchName number).toList ∉ [[]]
      simp [h.isNew.entry.nonempty]

theorem avoids_searchDirectory {entry : List Char}
    (hentry : Unmentioned (scratchName number) (String.ofList entry)) :
    (env.searchDirectory entry).Avoids (scratchName number) := by
  unfold Environment.searchDirectory
  dsimp only
  split
  · exact h.avoids_home
  · rename_i rest
    have hrest : Unmentioned (scratchName number) (String.ofList rest) :=
      hentry.mono (by
        simpa using (List.suffix_append ['~', '/'] rest).isInfix)
    have hsteps : ∀ step ∈ FilePath.steps ⟨String.ofList rest⟩, step ≠ "." →
        (⟨step⟩ : FilePath).Avoids (scratchName number) := by
      intro step hstep hdot
      refine FilePath.avoids_of_unmentioned (hrest.mono ?_)
      exact FilePath.infix_of_mem_steps hstep hdot
    generalize FilePath.steps ⟨String.ofList rest⟩ = steps at hsteps
    have hhome := h.avoids_home
    generalize ((((env.get? "HOME").map FilePath.mk).or env.accountHome).getD ⟨""⟩) = home at hhome
    induction steps generalizing home with
    | nil => exact hhome
    | cons step steps ih =>
      obtain ⟨hstep, hothers⟩ := List.forall_mem_cons.1 hsteps
      rw [List.foldl_cons]
      refine ih hothers _ ?_
      split
      · exact hhome
      · rename_i hdot
        exact hhome.join (hstep hdot)
  · exact FilePath.avoids_of_unmentioned hentry

theorem avoids_candidate {searchPath name : String} (hpath : env.get? "PATH" = some searchPath)
    (hname : name ∈ fixedNames) {p : FilePath}
    (hp : p ∈ (Environment.splitColons searchPath.toList).map fun entry =>
      env.searchDirectory entry / name) : p.Avoids (scratchName number) := by
  obtain ⟨entry, hentry, rfl⟩ := List.mem_map.1 hp
  refine Avoids.join_fixed (h.avoids_searchDirectory ?_) hname
  refine (h.unmentioned_get? hpath).mono ?_
  simpa using infix_of_mem_splitColons hentry

theorem findProgram?_put {name : String}
    (hname : name ∈ fixedNames) :
    env.findProgram? (files.put (scratchName number :: above) node) name =
      env.findProgram? files name := by
  simp only [Environment.findProgram?, bind, Option.bind]
  cases hpath : env.get? "PATH" with
  | none => rfl
  | some searchPath =>
    exact find?_congr_of_mem fun p hp => h.isNew.isProgram_put (h.avoids_candidate hpath hname hp)

theorem of_findProgram? {name : String}
    (hname : name ∈ fixedNames) {p : FilePath}
    (hp : env.findProgram? files name = some p) :
    p.Avoids (scratchName number) ∧ files.isProgram p = true := by
  simp only [Environment.findProgram?, bind, Option.bind] at hp
  cases hpath : env.get? "PATH" with
  | none => simp [hpath] at hp
  | some searchPath =>
    rw [hpath] at hp
    exact ⟨h.avoids_candidate hpath hname (List.mem_of_find?_eq_some hp), List.find?_some hp⟩

/-! ### The distributions -/

theorem kotlinOnPath?_put :
    kotlinOnPath? env (files.put (scratchName number :: above) node) = kotlinOnPath? env files := by
  have hname : "kotlinc" ∈ fixedNames := by decide
  simp only [kotlinOnPath?, h.findProgram?_put hname, bind, Option.bind]
  cases hfound : env.findProgram? files "kotlinc" with
  | none => rfl
  | some kotlinc => simp only [h.isNew.canonical_put (h.of_findProgram? hname hfound).1]

theorem avoids_kotlinOnPath? {home : FilePath} (hhome : kotlinOnPath? env files = some home) :
    home.Avoids (scratchName number) := by
  have hname : "kotlinc" ∈ fixedNames := by decide
  simp only [kotlinOnPath?, bind, Option.bind] at hhome
  cases hfound : env.findProgram? files "kotlinc" with
  | none => simp [hfound] at hhome
  | some kotlinc =>
    obtain ⟨havoids, hprogram⟩ := h.of_findProgram? hname hfound
    obtain ⟨place, hcanonical, hplace, hnamed⟩ := h.isNew.canonical_of_isProgram havoids hprogram
    simp only [hfound, hcanonical, Except.toOption, Option.getD_some] at hhome
    -- The path of a place has the path of the place above it as its parent, and the root has none.
    rcases place with _ | ⟨first, _ | ⟨second, rest⟩⟩
    · have hroot : (Place.path []).parent? = none := by decide
      simp [hroot] at hhome
    · have hroot : (Place.path []).parent? = none := by decide
      simp [Place.parent?_path_cons hnamed, hroot] at hhome
    · have hrest := (List.forall_mem_cons.1 hnamed).2
      rw [Place.parent?_path_cons hnamed] at hhome
      simp only [Place.parent?_path_cons hrest, Option.some.injEq] at hhome
      subst hhome
      refine Place.avoids_path (List.forall_mem_cons.1 hrest).2 h.isNew.entry fun hmem => hplace ?_
      simp [hmem]

theorem avoids_hint {p : FilePath}
    (hp : some p ∈ [hints.androidHome, hints.kotlinHome, hints.javaHome]) :
    p.Avoids (scratchName number) := by
  have hmem : p ∈ [hints.androidHome, hints.kotlinHome, hints.javaHome].filterMap id :=
    List.mem_filterMap.2 ⟨some p, hp, rfl⟩
  exact FilePath.avoids_of_unmentioned
    (h.unhinted _ (List.mem_append_left _ (List.mem_map_of_mem hmem)))

theorem avoids_java {home : FilePath}
    (hhome : hints.javaHome.or (env.firstDirectory? files ["JAVA_HOME"]) = some home) :
    (home / "bin" / "java").Avoids (scratchName number) := by
  have havoids : home.Avoids (scratchName number) :=
    FilePath.avoids_or (fun p hp => h.avoids_hint (by simp [hp]))
      (fun p => h.avoids_firstDirectory?) hhome
  exact Avoids.join_fixed (Avoids.join_fixed havoids (by decide)) (by decide)

theorem findJava_put :
    findJava env (files.put (scratchName number :: above) node) hints.javaHome =
      findJava env files hints.javaHome := by
  have hname : "java" ∈ fixedNames := by decide
  simp only [findJava, h.firstDirectory?_put, h.findProgram?_put hname]
  congr 2
  cases hhome : hints.javaHome.or (env.firstDirectory? files ["JAVA_HOME"]) with
  | none => rfl
  | some home =>
    simp only [Option.map_some, Option.filter_some, h.isNew.isFile_put (h.avoids_java hhome)]

theorem avoids_findJava : (findJava env files hints.javaHome).Avoids (scratchName number) := by
  have hname : "java" ∈ fixedNames := by decide
  unfold findJava
  dsimp only
  cases hfound : (((hints.javaHome.or (env.firstDirectory? files ["JAVA_HOME"])).map
      (· / "bin" / "java")).filter files.isFile).or (env.findProgram? files "java") with
  | none => exact avoids_fixed hname number
  | some java =>
    refine FilePath.avoids_or (fun p hp => ?_) (fun p hp => (h.of_findProgram? hname hp).1) hfound
    obtain ⟨home, hhome, rfl⟩ := Option.map_eq_some_iff.1 (Option.filter_eq_some_iff.1 hp).1
    exact h.avoids_java hhome

/-! ### The installed versions -/

theorem avoids_entry {root : FilePath} (hroot : root.Avoids (scratchName number)) {place : Place}
    {name : String} (hname : name ∈ files.namesIn place) :
    (root / name).Avoids (scratchName number) := by
  refine hroot.join (FilePath.avoids_entry (h.isNew.named.isEntryName hname) ?_)
  rintro rfl
  obtain ⟨entry, hentry, hplace⟩ := FileTree.exists_entry_iff.1 hname
  exact h.isNew.nodes entry hentry (by simp [hplace])

theorem latestAmong_put {root : FilePath} (hroot : root.Avoids (scratchName number)) (kind : String)
    (versionOf : String → Option String) (place : Place) :
    latestAmong (files.put (scratchName number :: above) node) root kind versionOf
        (.ok ((files.namesIn place).map some)) =
      latestAmong files root kind versionOf (.ok ((files.namesIn place).map some)) := by
  have hversions : versionsAmong (files.put (scratchName number :: above) node) root versionOf
      ((files.namesIn place).map some) =
        versionsAmong files root versionOf ((files.namesIn place).map some) := by
    refine List.filterMap_congr fun entry hentry => ?_
    obtain ⟨name, hname, rfl⟩ := List.mem_map.1 hentry
    simp only [Option.bind_some, installedVersion?,
      h.isNew.isDirectory_put (h.avoids_entry hroot hname)]
  simp only [latestAmong, h.isNew.isDirectory_put hroot, hversions]

/-- The directory is no version, or is not listed among the versions. -/
theorem latestVersion_put {root : FilePath} (hroot : root.Avoids (scratchName number))
    (kind : String) {versionOf : String → Option String}
    (hversion : versionOf (scratchName number) = none ∨ ¬files.IsDirectoryAt root above) :
    latestVersion (files.put (scratchName number :: above) node) root kind versionOf =
      latestVersion files root kind versionOf := by
  cases hdirectory : files.isDirectory root with
  | false =>
    have hput : (files.put (scratchName number :: above) node).isDirectory root = false := by
      rw [h.isNew.isDirectory_put hroot, hdirectory]
    rw [latestVersion, latestVersion, latestAmong_of_not_isDirectory kind hput,
      latestAmong_of_not_isDirectory kind hdirectory]
  | true =>
    obtain ⟨place, hplace⟩ := FileTree.isDirectory_iff.1 hdirectory
    rw [latestVersion_of_isDirectoryAt kind hplace,
      latestVersion_of_isDirectoryAt kind (h.isNew.isDirectoryAt_put hroot hplace),
      h.isNew.namesIn_put]
    have hsame : latestAmong (files.put (scratchName number :: above) node) root kind versionOf
        (.ok ((files.namesIn place).map some)) = _ := h.latestAmong_put hroot kind versionOf place
    rw [← hsame]
    split
    · rename_i habove
      subst habove
      have hnone : versionOf (scratchName number) = none := hversion.resolve_right (not_not.2 hplace)
      have hrefused : ∀ name, some (scratchName number) = some name →
          (files.put (scratchName number :: place) node).isDirectory (root / name) = false ∨
            versionOf name = none := by
        rintro name hname
        obtain rfl := Option.some.inj hname
        exact .inr hnone
      simpa using latestAmong_append_cons kind ((files.namesIn place).map some) [] hrefused
    · rfl

theorem avoids_latestVersion {root p : FilePath} (hroot : root.Avoids (scratchName number))
    {kind : String} {versionOf : String → Option String}
    (hp : latestVersion files root kind versionOf = .ok p) : p.Avoids (scratchName number) := by
  cases hdirectory : files.isDirectory root with
  | false =>
    rw [latestVersion, latestAmong_of_not_isDirectory kind hdirectory] at hp
    cases hp
  | true =>
    obtain ⟨place, hplace⟩ := FileTree.isDirectory_iff.1 hdirectory
    rw [latestVersion_of_isDirectoryAt kind hplace, latestAmong_ok kind hdirectory] at hp
    cases hbest : greatest? (·.1) (versionsAmong files root versionOf
        ((files.namesIn place).map some)) with
    | none =>
      rw [hbest] at hp
      cases hp
    | some found =>
      rw [hbest] at hp
      obtain ⟨name, version, hinstalled, rfl⟩ :=
        mem_versionsAmong_iff.1 (isLatest_of_greatest? hbest).mem
      cases hp
      obtain ⟨other, hother, hsame⟩ := List.mem_map.1 hinstalled.listed
      obtain rfl := Option.some.inj hsame
      exact h.avoids_entry hroot hother

/-! ### The toolchain -/

theorem avoids_androidHome {android : FilePath}
    (handroid : androidHome? env files hints = some android) :
    android.Avoids (scratchName number) :=
  FilePath.avoids_or (fun p hp => h.avoids_hint (by simp [hp]))
    (fun p => h.avoids_firstDirectory?) handroid

theorem avoids_kotlinHome {kotlin : FilePath} (hkotlin : kotlinHome? env files hints = some kotlin) :
    kotlin.Avoids (scratchName number) :=
  FilePath.avoids_or
    (fun p => FilePath.avoids_or (fun p hp => h.avoids_hint (by simp [hp]))
      fun p => h.avoids_firstDirectory?)
    (fun p => h.avoids_kotlinOnPath?) hkotlin

theorem runtimeJarsIn_put {kotlin : FilePath} (hkotlin : kotlin.Avoids (scratchName number)) :
    Locations.runtimeJarsIn (files.put (scratchName number :: above) node) kotlin =
      Locations.runtimeJarsIn files kotlin := by
  have hsame : (Locations.runtimeJarNames.map (kotlin / "lib" / ·)).filter
      (files.put (scratchName number :: above) node).isFile =
        (Locations.runtimeJarNames.map (kotlin / "lib" / ·)).filter files.isFile := by
    refine List.filter_congr fun p hp => ?_
    obtain ⟨name, hname, rfl⟩ := List.mem_map.1 hp
    have hlib : (kotlin / "lib").Avoids (scratchName number) := Avoids.join_fixed hkotlin (by decide)
    exact h.isNew.isFile_put (Avoids.join_fixed hlib (List.mem_append_right _ hname))
  unfold Locations.runtimeJarsIn
  dsimp only
  rw [hsame]

theorem versionDirectory_put {root : FilePath} (hroot : root.Avoids (scratchName number))
    (kind : String) {versionOf : String → Option String} (pinned : Option String)
    (hversion : versionOf (scratchName number) = none ∨ ¬files.IsDirectoryAt root above) :
    versionDirectory (files.put (scratchName number :: above) node) root kind versionOf pinned =
      versionDirectory files root kind versionOf pinned := by
  cases pinned with
  | none => exact h.latestVersion_put hroot kind hversion
  | some version => rfl

theorem discover_put (scratch : FilePath) :
    discover env (files.put (scratchName number :: above) node) hints scratch =
      discover env files hints scratch := by
  have handroidHome : androidHome? env (files.put (scratchName number :: above) node) hints =
      androidHome? env files hints := by
    simp only [androidHome?, h.firstDirectory?_put]
  have hkotlinHome : kotlinHome? env (files.put (scratchName number :: above) node) hints =
      kotlinHome? env files hints := by
    simp only [kotlinHome?, h.firstDirectory?_put, h.kotlinOnPath?_put]
  rw [discover_eq, discover_eq, handroidHome, hkotlinHome, h.findJava_put]
  cases handroid : androidHome? env files hints with
  | none => rfl
  | some android =>
    cases hkotlin : kotlinHome? env files hints with
    | none => rfl
    | some kotlin =>
      have havoids := h.avoids_androidHome handroid
      have htools : (android / "build-tools").Avoids (scratchName number) :=
        Avoids.join_fixed havoids (by decide)
      have hplatforms : (android / "platforms").Avoids (scratchName number) :=
        Avoids.join_fixed havoids (by decide)
      simp only [Option.elim_some, bind, Except.bind,
        h.versionDirectory_put htools _ _ (.inr (h.apart android handroid)),
        h.versionDirectory_put hplatforms _ _ (.inl (platformVersion?_scratchName number)),
        Locations.ofLayout, h.runtimeJarsIn_put (h.avoids_kotlinHome hkotlin)]

/-! ### What is missing -/

theorem avoids_versionDirectory {root p : FilePath} (hroot : root.Avoids (scratchName number))
    {kind : String} {versionOf : String → Option String} {pinned : Option String}
    (hpinned : ∀ version, pinned = some version → version ∈ hints.texts)
    (hp : versionDirectory files root kind versionOf pinned = .ok p) :
    p.Avoids (scratchName number) := by
  cases pinned with
  | none => exact h.avoids_latestVersion hroot hp
  | some version =>
    obtain rfl := Except.ok.inj hp
    exact hroot.join (FilePath.avoids_of_unmentioned (h.unhinted _ (hpinned version rfl)))

theorem avoids_tools {scratch : FilePath} {l : Locations}
    (hl : discover env files hints scratch = .ok l) {entry : String × FilePath}
    (hentry : entry ∈ l.tools) : entry.2.Avoids (scratchName number) := by
  obtain ⟨android, kotlin, tools, platform, handroid, hkotlin, htools, hplatform, rfl⟩ :=
    exists_layout_of_discover hl
  have handroidHome := h.avoids_androidHome handroid
  have hkotlinHome := h.avoids_kotlinHome hkotlin
  have hbelow {dir : FilePath} (hdir : dir.Avoids (scratchName number)) (name : String)
      (hname : name ∈ fixedNames) : (dir / name).Avoids (scratchName number) :=
    Avoids.join_fixed hdir hname
  have htoolsDir : tools.Avoids (scratchName number) :=
    h.avoids_versionDirectory (hbelow handroidHome "build-tools" (by decide))
      (fun version hversion => by simp [Hints.texts, hversion]) htools
  have hplatformDir : platform.Avoids (scratchName number) :=
    h.avoids_versionDirectory (hbelow handroidHome "platforms" (by decide))
      (fun version hversion => by simp [Hints.texts, hversion]) hplatform
  have hbin := hbelow (hbelow hkotlinHome "bin" (by decide)) "kotlinc" (by decide)
  have hjar := hbelow (hbelow htoolsDir "lib" (by decide)) "d8.jar" (by decide)
  have hstubs := hbelow hplatformDir "android.jar" (by decide)
  have hadb := hbelow (hbelow handroidHome "platform-tools" (by decide)) "adb" (by decide)
  have hdexdump := hbelow htoolsDir "dexdump" (by decide)
  rcases Locations.mem_of_mem_tools hentry with hentry | hentry
  · have hpaths : ∀ path ∈ [kotlin / "bin" / "kotlinc", findJava env files hints.javaHome,
        tools / "lib" / "d8.jar", platform / "android.jar", android / "platform-tools" / "adb",
        tools, tools / "dexdump"], path.Avoids (scratchName number) := by
      simp only [List.forall_mem_cons]
      exact ⟨hbin, h.avoids_findJava, hjar, hstubs, hadb, htoolsDir, hdexdump, List.forall_mem_nil _⟩
    exact hpaths _ hentry
  · have hjar : entry.2 ∈ Locations.runtimeJarsIn files kotlin := hentry
    exact avoids_runtimeJarsIn hkotlinHome hjar

/-- If the scratch directory is there, what is missing of the tools is all that is missing. -/
theorem missing_put {scratch : FilePath} {l : Locations}
    (hl : discover env files hints scratch = .ok l)
    (hreached : (files.put (scratchName number :: above) node).reaches l.scratch = true) :
    l.missing (files.put (scratchName number :: above) node) =
      l.tools.filter fun entry => !files.reaches entry.2 := by
  have htools : ∀ entry ∈ l.tools,
      (!(files.put (scratchName number :: above) node).reaches entry.2) =
        !files.reaches entry.2 := by
    intro entry hentry
    rw [h.isNew.reaches_put (h.avoids_tools hl hentry)]
  rw [Locations.missing, Locations.labelled_eq, List.filter_append, List.filter_congr htools]
  simp [hreached]

end IsUnasked

end IsUnasked

/-! ### The scratch directory -/

/-- Whether a process makes its scratch directory in `above`, under a name of its own. -/
structure IsScratchIn (env : Environment) (hints : Hints) (files : FileTree) (above : Place)
    (number : String) : Prop extends IsUnasked env hints files above number where
  temporary : files.IsDirectoryAt env.temporaryDirectory above
  fits : FileTree.Fits env.temporaryDirectory (scratchName number)
  itself : files.IsDirectoryAt (Place.path above) above
  itself_fits : FileTree.Fits (Place.path above) (scratchName number)

namespace IsScratchIn

variable {env : Environment} {hints : Hints} {files : FileTree} {above : Place} {number : String}
  (h : IsScratchIn env hints files above number)

include h

theorem scratchDirectory_eq :
    scratchDirectory { env with processId := number } files none =
      .ok (Place.path (scratchName number :: above),
        files.put (scratchName number :: above) .directory) := by
  have hname := h.isNew.entry
  have hnone : files.find? (scratchName number :: above) = none := h.isNew.find?_eq_none
  have hmade := FileTree.makeDirectories_entry h.temporary hname h.fits hnone
  have hcanonical := FileTree.canonical_made h.temporary hname h.fits hnone
  have hdir : (Environment.temporaryDirectory { env with processId := number } /
      ("kexp-" ++ number)) = env.temporaryDirectory / scratchName number := rfl
  simp only [scratchDirectory, Option.getD_none, hdir, hmade, hcanonical, bind, Except.bind, pure,
    Except.pure, Except.toOption, Option.getD_some]

theorem reaches_scratch :
    (files.put (scratchName number :: above) .directory).reaches
      (Place.path (scratchName number :: above)) = true := by
  have hname := h.isNew.entry
  have habove : above.IsNamed := h.isNew.isNamed (by simp [h.itself.directory])
  rw [Place.path_cons (List.forall_mem_cons.2 ⟨hname, habove⟩)]
  exact FileTree.reaches_made h.itself hname h.itself_fits h.isNew.find?_eq_none

theorem discover_eq :
    discover env (files.put (scratchName number :: above) .directory) hints
        (Place.path (scratchName number :: above)) =
      (discover env files hints ⟨""⟩).map fun l =>
        { l with scratch := Place.path (scratchName number :: above) } := by
  rw [h.discover_put, discover_scratch]

theorem missing_eq {l : Locations} (hl : discover env files hints ⟨""⟩ = .ok l) :
    ({ l with scratch := Place.path (scratchName number :: above) } : Locations).missing
        (files.put (scratchName number :: above) .directory) =
      l.tools.filter fun entry => !files.reaches entry.2 := by
  have hmade : discover env files hints (Place.path (scratchName number :: above)) =
      .ok { l with scratch := Place.path (scratchName number :: above) } := by
    rw [discover_scratch _ _ _ ⟨""⟩, hl]
    rfl
  rw [h.missing_put hmade h.reaches_scratch]
  simp only [Locations.tools, Locations.labelled, List.dropLast_concat]

end IsScratchIn

/-! ### A small toolchain

One directory that is the Android and the Kotlin distribution, with one version of each kind, and a
directory for temporary files where a file has the name of a scratch directory. -/

def smallNodes : List (FilePath × Place × Node) :=
  [(⟨"/s"⟩, ["s"], .directory), (⟨"/s/bin"⟩, ["bin", "s"], .directory),
    (⟨"/s/bin/kotlinc"⟩, ["kotlinc", "bin", "s"], .file [] true),
    (⟨"/s/bin/java"⟩, ["java", "bin", "s"], .file [] true),
    (⟨"/s/lib"⟩, ["lib", "s"], .directory),
    (⟨"/s/lib/kotlin-stdlib.jar"⟩, ["kotlin-stdlib.jar", "lib", "s"], .file [] true),
    (⟨"/s/lib/kotlin-stdlib-jdk8.jar"⟩, ["kotlin-stdlib-jdk8.jar", "lib", "s"], .file [] true),
    (⟨"/s/lib/kotlin-annotations-jvm.jar"⟩, ["kotlin-annotations-jvm.jar", "lib", "s"],
      .file [] true),
    (⟨"/s/lib/kotlinx-coroutines-core-jvm.jar"⟩, ["kotlinx-coroutines-core-jvm.jar", "lib", "s"],
      .file [] true),
    (⟨"/s/build-tools"⟩, ["build-tools", "s"], .directory),
    (⟨"/s/build-tools/34"⟩, ["34", "build-tools", "s"], .directory),
    (⟨"/s/build-tools/34/dexdump"⟩, ["dexdump", "34", "build-tools", "s"], .file [] true),
    (⟨"/s/build-tools/34/lib"⟩, ["lib", "34", "build-tools", "s"], .directory),
    (⟨"/s/build-tools/34/lib/d8.jar"⟩, ["d8.jar", "lib", "34", "build-tools", "s"], .file [] true),
    (⟨"/s/platforms"⟩, ["platforms", "s"], .directory),
    (⟨"/s/platforms/android-34"⟩, ["android-34", "platforms", "s"], .directory),
    (⟨"/s/platforms/android-34/android.jar"⟩, ["android.jar", "android-34", "platforms", "s"],
      .file [] true),
    (⟨"/s/platform-tools"⟩, ["platform-tools", "s"], .directory),
    (⟨"/s/platform-tools/adb"⟩, ["adb", "platform-tools", "s"], .file [] true),
    (⟨"/t"⟩, ["t"], .file [] true), (⟨"/w"⟩, ["w"], .directory)]

def smallTree : FileTree :=
  ⟨smallNodes.map (·.2) ++ [(["kexp-2", "w"], .file [] false)], []⟩

def smallEnvironment (number : String) : Environment :=
  ⟨[("TMPDIR", "/w"), ("ANDROID_HOME", "/s"), ("KOTLIN_HOME", "/s"), ("JAVA_HOME", "/s")], none,
    number⟩

def smallLocations : Locations where
  kotlinc := ⟨"/s/bin/kotlinc"⟩
  java := ⟨"/s/bin/java"⟩
  optimizerJar := ⟨"/s/build-tools/34/lib/d8.jar"⟩
  platformJar := ⟨"/s/platforms/android-34/android.jar"⟩
  adb := ⟨"/s/platform-tools/adb"⟩
  buildTools := ⟨"/s/build-tools/34"⟩
  dexdump := ⟨"/s/build-tools/34/dexdump"⟩
  runtimeJars := Locations.runtimeJarNames.map ((⟨"/s/lib"⟩ : FilePath) / ·)
  scratch := ⟨""⟩

theorem status_small {entry : FilePath × Place × Node} (h : entry ∈ smallNodes) :
    smallTree.status entry.1 = .ok entry.2.2 ∧ smallTree.locate entry.1 = .ok entry.2.1 := by
  have hall : ∀ entry ∈ smallNodes, Place.path entry.2.1 = entry.1 ∧
      smallTree.IsBelow entry.2.1 ∧ smallTree.find? entry.2.1 = some entry.2.2 ∧
        (entry.2.2 = .directory ∨ entry.2.2 = .file [] true) := by decide
  obtain ⟨hpath, hbelow, hnode, hkind⟩ := hall entry h
  have hlink (target : FilePath) : entry.2.2 ≠ .link target := by
    rcases hkind with hkind | hkind <;> simp [hkind]
  rw [← hpath]
  exact ⟨FileTree.status_path hbelow hnode hlink,
    FileTree.locate_path hbelow (fun target => by simpa [hnode] using hlink target) true⟩

theorem isFile_small {tool : FilePath} (place : Place)
    (h : (tool, place, .file [] true) ∈ smallNodes) : smallTree.isFile tool = true := by
  simp only [FileTree.isFile, (status_small h).1]

theorem isDirectory_small {dir : FilePath} (place : Place)
    (h : (dir, place, .directory) ∈ smallNodes) : smallTree.isDirectory dir = true := by
  simp only [FileTree.isDirectory, (status_small h).1]

theorem isDirectoryAt_small {dir : FilePath} {place : Place}
    (h : (dir, place, .directory) ∈ smallNodes) : smallTree.IsDirectoryAt dir place := by
  obtain ⟨found, hfound⟩ := FileTree.isDirectory_iff.1 (isDirectory_small place h)
  have hlocate := (FileTree.isDirectoryAt_iff.1 hfound).1
  obtain rfl := Except.ok.inj (hlocate.symm.trans (status_small h).2)
  exact hfound

theorem missing_smallTools :
    (smallLocations.tools.filter fun entry => !smallTree.reaches entry.2) = [] := by
  have hpaths : ∀ entry ∈ smallLocations.tools, entry.2 ∈ smallNodes.map (·.1) := by decide
  rw [List.filter_eq_nil_iff]
  intro entry hentry
  obtain ⟨node, hnode, hsame⟩ := List.mem_map.1 (hpaths entry hentry)
  simp [← hsame, FileTree.reaches, (status_small hnode).1, Except.toBool]

theorem latestVersion_of_one {files : FileTree} {root : FilePath} {place : Place} {name : String}
    {versionOf : String → Option String} (version kind : String)
    (hroot : files.IsDirectoryAt root place) (hnames : files.namesIn place = [name])
    (hversion : versionOf name = some version) (hdirectory : files.isDirectory (root / name) = true) :
    latestVersion files root kind versionOf = .ok (root / name) := by
  have hone : versionsAmong files root versionOf [some name] =
      [(VersionKey.ofName version, root / name)] := by
    simp [versionsAmong, installedVersion?, hdirectory, hversion]
  rw [latestVersion_of_isDirectoryAt kind hroot, hnames, List.map_singleton,
    latestAmong_ok kind (FileTree.isDirectory_iff.2 ⟨place, hroot⟩), hone]
  rfl

theorem firstDirectory?_smallTree (number name : String)
    (h : (smallEnvironment number).get? name = some "/s") (names : List String) :
    (smallEnvironment number).firstDirectory? smallTree (name :: names) = some ⟨"/s"⟩ := by
  have hhome : smallTree.isDirectory ⟨"/s"⟩ = true :=
    isDirectory_small ["s"] (by decide)
  simp [Environment.firstDirectory?, h, hhome]

theorem findJava_smallTree (number : String) :
    findJava (smallEnvironment number) smallTree none = ⟨"/s/bin/java"⟩ := by
  have hpath : (⟨"/s"⟩ : FilePath) / "bin" / "java" = ⟨"/s/bin/java"⟩ := by decide
  have hfile : smallTree.isFile ⟨"/s/bin/java"⟩ = true :=
    isFile_small ["java", "bin", "s"] (by decide)
  have hfound : (some (⟨"/s/bin/java"⟩ : FilePath)).filter smallTree.isFile =
      some ⟨"/s/bin/java"⟩ := by
    rw [Option.filter_some, if_pos hfile]
  have hhome := firstDirectory?_smallTree number "JAVA_HOME" rfl []
  simp only [findJava, hhome, Option.none_or, Option.map_some, hpath, hfound, Option.some_or,
    Option.getD_some]

theorem runtimeJarsIn_smallTree :
    Locations.runtimeJarsIn smallTree ⟨"/s"⟩ = smallLocations.runtimeJars := by
  have hlibrary : (⟨"/s"⟩ : FilePath) / "lib" = ⟨"/s/lib"⟩ := by decide
  have hpaths : ∀ jar ∈ smallLocations.runtimeJars,
      jar ∈ (smallNodes.filter fun entry => entry.2.2 = .file [] true).map (·.1) := by decide
  have hall : (Locations.runtimeJarNames.map ((⟨"/s/lib"⟩ : FilePath) / ·)).filter smallTree.isFile =
      smallLocations.runtimeJars := by
    refine List.filter_eq_self.2 fun jar hjar => ?_
    obtain ⟨⟨tool, place, node⟩, hentry, rfl⟩ := List.mem_map.1 (hpaths jar hjar)
    obtain ⟨hmem, hnode⟩ := List.mem_filter.1 hentry
    exact isFile_small place (of_decide_eq_true hnode ▸ hmem)
  unfold Locations.runtimeJarsIn
  dsimp only
  rw [hlibrary, hall]
  rfl

theorem discover_smallTree (number : String) :
    discover (smallEnvironment number) smallTree {} ⟨""⟩ = .ok smallLocations := by
  have hjava := findJava_smallTree number
  have htools : latestVersion smallTree ⟨"/s/build-tools"⟩ "build-tools" some =
      .ok ((⟨"/s/build-tools"⟩ : FilePath) / "34") := by
    have hroot : smallTree.IsDirectoryAt ⟨"/s/build-tools"⟩ ["build-tools", "s"] :=
      isDirectoryAt_small (by decide)
    exact latestVersion_of_one "34" "build-tools" hroot (by decide) rfl
      (isDirectory_small ["34", "build-tools", "s"] (by decide))
  have hplatform : latestVersion smallTree ⟨"/s/platforms"⟩ "platform" platformVersion? =
      .ok ((⟨"/s/platforms"⟩ : FilePath) / "android-34") := by
    have hroot : smallTree.IsDirectoryAt ⟨"/s/platforms"⟩ ["platforms", "s"] :=
      isDirectoryAt_small (by decide)
    exact latestVersion_of_one "34" "platform" hroot (by decide) (by decide)
      (isDirectory_small ["android-34", "platforms", "s"] (by decide))
  have hroots : (⟨"/s"⟩ : FilePath) / "build-tools" = ⟨"/s/build-tools"⟩ ∧
      (⟨"/s"⟩ : FilePath) / "platforms" = ⟨"/s/platforms"⟩ := by decide
  have hmade : Locations.ofLayout smallTree ⟨"/s"⟩ ⟨"/s"⟩ ⟨"/s/bin/java"⟩
      ((⟨"/s/build-tools"⟩ : FilePath) / "34") ((⟨"/s/platforms"⟩ : FilePath) / "android-34")
      ⟨""⟩ = smallLocations := by
    rw [Locations.ofLayout, runtimeJarsIn_smallTree]
    decide
  have handroid := firstDirectory?_smallTree number "ANDROID_HOME" rfl
  have hkotlin := firstDirectory?_smallTree number "KOTLIN_HOME" rfl
  simp only [discover, Option.none_or, Option.some_or, handroid, hkotlin, hjava, hroots.1, hroots.2,
    htools, hplatform, bind, Except.bind, pure, Except.pure, hmade]

/-- Surroundings that name no directory but the one for temporary files. -/
def bareEnvironment (number : String) : Environment :=
  ⟨[("TMPDIR", "/w")], none, number⟩

/-- A process whose number is not that of the file can make its scratch directory. -/
theorem isScratchIn_smallTree {env : Environment} {number : String}
    (henv : env ∈ [smallEnvironment "1", bareEnvironment "1"]) (hnumber : number ∈ ["1", "3"]) :
    IsScratchIn env {} smallTree ["w"] number := by
  have hplain : ∀ entry ∈ smallTree.nodes,
      (∀ name ∈ entry.1, IsEntryName name ∧ name ∉ ["kexp-1", "kexp-3"]) ∧
        (entry.2 = .directory ∨ entry.2 = .file [] true ∨ entry.2 = .file [] false) := by decide
  have hscratch : ∀ number ∈ ["1", "3"], IsEntryName (scratchName number) ∧
      scratchName number ∈ ["kexp-1", "kexp-3"] ∧
      FileTree.Fits ⟨"/w"⟩ (scratchName number) := by decide
  have htexts : ∀ env ∈ [smallEnvironment "1", bareEnvironment "1"],
      env.temporaryDirectory = ⟨"/w"⟩ ∧ ∀ text ∈ env.texts, Unmentioned "kexp-" text := by decide
  obtain ⟨hentry, hname, hfits⟩ := hscratch number hnumber
  obtain ⟨htemporary, hunmentioned⟩ := htexts env henv
  have hpath : Place.path ["w"] = ⟨"/w"⟩ := by decide
  have hdirectory : smallTree.IsDirectoryAt ⟨"/w"⟩ ["w"] := isDirectoryAt_small (by decide)
  have hnew : smallTree.IsNew (scratchName number) := by
    refine ⟨hentry, ?_, ?_, List.not_mem_nil, ?_⟩
    · exact fun entry hmem name hname => ((hplain entry hmem).1 name hname).1
    · exact fun entry hmem hin => ((hplain entry hmem).1 _ hin).2 hname
    · intro place target hmem
      rcases (hplain _ hmem).2 with hnode | hnode | hnode <;> cases hnode
  refine ⟨⟨hnew, fun text htext => ?_, fun text htext => absurd htext List.not_mem_nil,
    fun home hhome hbuildTools => ?_⟩, htemporary ▸ hdirectory, htemporary ▸ hfits,
    hpath ▸ hdirectory, hpath ▸ hfits⟩
  · refine mt (fun hfound => List.IsInfix.trans ?_ hfound) (hunmentioned text htext)
    simpa [scratchName] using (List.prefix_append "kexp-".toList number.toList).isInfix
  · simp only [List.mem_cons, List.not_mem_nil, or_false] at henv
    rcases henv with rfl | rfl
    · have hsame := firstDirectory?_smallTree "1" "ANDROID_HOME" rfl ["ANDROID_SDK_ROOT"]
      obtain rfl := Option.some.inj (hsame.symm.trans hhome)
      have hfound : smallTree.IsDirectoryAt ⟨"/s/build-tools"⟩ ["build-tools", "s"] :=
        isDirectoryAt_small (by decide)
      have hroot : (⟨"/s"⟩ : FilePath) / "build-tools" = ⟨"/s/build-tools"⟩ := by decide
      exact absurd (hfound.unique (hroot ▸ hbuildTools)) (by decide)
    · cases hhome

theorem scratchDirectory_taken :
    scratchDirectory (smallEnvironment "2") smallTree none = .error .exists := by
  have hdirectory : smallTree.IsDirectoryAt ⟨"/w"⟩ ["w"] := isDirectoryAt_small (by decide)
  have hfile : smallTree.find? ["kexp-2", "w"] = some (.file [] false) := by decide
  have hdir : (smallEnvironment "2").temporaryDirectory / ("kexp-" ++ "2") =
      (⟨"/w"⟩ : FilePath) / "kexp-2" := rfl
  have htaken : smallTree.makeDirectories ((⟨"/w"⟩ : FilePath) / "kexp-2") = .error .exists :=
    FileTree.makeDirectories_taken hdirectory (by decide) (by decide) hfile
  show ((smallTree.makeDirectories ((smallEnvironment "2").temporaryDirectory / ("kexp-" ++ "2")))
    >>= _) = _
  rw [hdir, htaken]
  rfl

end SnippetLens.Toolchain
