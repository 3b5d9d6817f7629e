import SnippetLens.Proofs.Cli.Commands
import SnippetLens.Proofs.Files.Ancestors
import SnippetLens.Proofs.Files.Removal

/-!
Which configuration a command goes by.

There is at most one file that counts: the one that is asked for, or else that of the nearest project
around the working directory, or else that of the user. What is in it decides, whether it is a
configuration or not. The defaults stand in only where no file counts, or where nothing is at the
path of the user's; a file of a project is there when it is found, so for it they never do.
-/

namespace SnippetLens.Cli

open Files Toolchain Config

/-! ### The files that count -/

def projectFile (place : Place) : FilePath :=
  place.path / ".kexp" / "config.toml"

/-- Whether the nearest project around the working directory is at a place. -/
structure IsNearest (files : FileTree) (above : Place) : Prop where
  here : files.find? files.here = some .directory
  around : above <:+ files.here
  file : files.isFile (projectFile above) = true
  nearest : ∀ place, place <:+ files.here → above.length < place.length →
    files.isFile (projectFile place) = false

structure HasNoProject (files : FileTree) : Prop where
  here : files.find? files.here = some .directory
  none : ∀ place, place <:+ files.here → files.isFile (projectFile place) = false

theorem isNearest_iff {files : FileTree} {above : Place} :
    IsNearest files above ↔ files.find? files.here = some .directory ∧
      (files.here.tails.find? fun place => files.isFile (projectFile place)) = some above := by
  rw [find?_tails_eq_some_iff (p := fun place => files.isFile (projectFile place))]
  exact ⟨fun h => ⟨h.here, h.around, h.file, h.nearest⟩, fun ⟨hhere, haround, hfile, hnearest⟩ =>
    ⟨hhere, haround, hfile, hnearest⟩⟩

/-- Whether the file at a path counts for a command that asks for a file or for none. -/
inductive IsSelected (env : Environment) (files : FileTree) :
    Option FilePath → FilePath → Prop where
  | asked {p : FilePath} : IsSelected env files (some p) p
  | project {above : Place} (h : IsNearest files above) :
    IsSelected env files none (projectFile above)
  | user {p : FilePath} (h : HasNoProject files) (huser : userSettings? env = some p) :
    IsSelected env files none p

/-- Whether there is no configuration: the working directory is gone, or there is no project, and
no home or nothing in it. -/
inductive HasNone (env : Environment) (files : FileTree) : Prop where
  | adrift (h : files.find? files.here ≠ some .directory)
  | homeless (h : HasNoProject files) (hprogram : env.get? "KEXP_HOME" = none)
    (huser : env.userHome? = none)
  | absent {p : FilePath} (h : HasNoProject files) (huser : userSettings? env = some p)
    (hread : files.readText p = .error .notFound)

section Project

variable {files : FileTree}

theorem isNamed_here (hnames : files.WellNamed) (hhere : files.find? files.here = some .directory) :
    Place.IsNamed files.here := by
  intro name hname
  cases hplace : files.here with
  | nil =>
    rw [hplace] at hname
    cases hname
  | cons first above =>
    rw [hplace] at hname hhere
    have hsome : (files.find? (first :: above)).isSome = true := by rw [hhere]; rfl
    obtain ⟨entry, hentry, hsame⟩ :=
      FileTree.exists_entry_iff.1 (FileTree.mem_namesIn_iff.2 hsome)
    exact hnames entry hentry name (hsame ▸ hname)

theorem projectSettings?_eq (hnames : files.WellNamed)
    (hhere : files.find? files.here = some .directory) :
    projectSettings? files files.here.path =
      (files.here.tails.find? fun place => files.isFile (projectFile place)).map projectFile := by
  have hfile : (fun p : FilePath => p / settingsDirectory / settingsFile) ∘ Place.path =
      projectFile := rfl
  rw [projectSettings?, Place.ancestors_path (isNamed_here hnames hhere), List.map_map, hfile,
    List.find?_map, Function.comp_def]

theorem projectSettings?_of_isNearest (hnames : files.WellNamed) {above : Place}
    (h : IsNearest files above) :
    projectSettings? files files.here.path = some (projectFile above) := by
  rw [projectSettings?_eq hnames h.here, (isNearest_iff.1 h).2]
  rfl

theorem projectSettings?_of_hasNoProject (hnames : files.WellNamed) (h : HasNoProject files) :
    projectSettings? files files.here.path = none := by
  rw [projectSettings?_eq hnames h.here, Option.map_eq_none_iff, List.find?_eq_none]
  intro place hplace
  rw [h.none place ((List.mem_tails place _).1 hplace)]
  exact Bool.false_ne_true

theorem exists_isNearest (hhere : files.find? files.here = some .directory) {place : Place}
    (hplace : place <:+ files.here) (hfile : files.isFile (projectFile place) = true) :
    ∃ above, IsNearest files above := by
  cases hfirst : files.here.tails.find? fun place => files.isFile (projectFile place) with
  | none =>
    have hno := List.find?_eq_none.1 hfirst place ((List.mem_tails place _).2 hplace)
    exact absurd hfile hno
  | some above =>
    exact ⟨above, isNearest_iff.2 ⟨hhere, hfirst⟩⟩

theorem IsNearest.unique {above above' : Place} (h : IsNearest files above)
    (h' : IsNearest files above') : above = above' :=
  Option.some.inj ((isNearest_iff.1 h).2.symm.trans (isNearest_iff.1 h').2)

theorem IsNearest.not_hasNoProject {above : Place} (h : IsNearest files above) :
    ¬HasNoProject files := by
  intro hno
  have hfile := h.file
  rw [hno.none above h.around] at hfile
  cases hfile

end Project

theorem IsSelected.unique {env : Environment} {files : FileTree} {config : Option FilePath}
    {p p' : FilePath} (h : IsSelected env files config p) (h' : IsSelected env files config p') :
    p = p' := by
  cases h with
  | asked =>
    cases h'
    rfl
  | project h =>
    cases h' with
    | project h' => rw [h.unique h']
    | user h' => exact absurd h' h.not_hasNoProject
  | user h huser =>
    cases h' with
    | project h' => exact absurd h h'.not_hasNoProject
    | user _ huser' => exact Option.some.inj (huser.symm.trans huser')

/-! ### What a file leads to -/

section Load

variable {env : Environment} {files : FileTree}

theorem readText_ne_notFound {p : FilePath} (h : files.isFile p = true) :
    files.readText p ≠ .error .notFound := by
  obtain ⟨place, node, hlocate, hnode, hregular⟩ := FileTree.isFile_iff.1 h
  obtain ⟨bytes, hread⟩ : ∃ bytes, files.read p = .ok bytes := by
    simp only [FileTree.read, FileTree.status, hlocate, hnode, bind, Except.bind]
    cases node with
    | file content _ => exact ⟨content, rfl⟩
    | interpreter => exact ⟨[], rfl⟩
    | directory | link _ | nullDevice => cases hregular
  simp only [FileTree.readText, hread, bind, Except.bind]
  split <;> simp [pure, Except.pure]

theorem ofText_ne {document : String} :
    Settings.ofText document ≠ .error (.read .notFound) ∧
      Settings.ofText document ≠ .error .homeless := by
  cases hentries : Toml.parse? document with
  | none => simp [Settings.ofText, hentries]
  | some entries =>
    cases hresult : Settings.ofTable entries <;>
      simp [Settings.ofText, hentries, hresult, Except.mapError]

theorem ofFile_of_readText {p : FilePath} {document : String}
    (h : files.readText p = .ok document) :
    Settings.ofFile files p = Settings.ofText document := by
  rw [Settings.ofFile, h]

/-- What a file leads to is not replaced by the defaults, unless nothing is there. -/
theorem load_none_of_loadScoped {p : FilePath}
    (h : loadScoped env files = Settings.ofFile files p)
    (hthere : files.readText p ≠ .error .notFound) :
    load env files none = Settings.ofFile files p := by
  have hkept : Settings.ofFile files p ≠ .error (.read .notFound) ∧
      Settings.ofFile files p ≠ .error .homeless := by
    cases hread : files.readText p with
    | error cause =>
      rw [hread] at hthere
      simpa [Settings.ofFile, hread] using hthere
    | ok document =>
      rw [ofFile_of_readText hread]
      exact ofText_ne
  simp only [load, h]
  split
  · exact absurd ‹_› hkept.1
  · exact absurd ‹_› hkept.2
  · rfl

theorem workingDirectory_eq (h : files.find? files.here = some .directory) :
    files.workingDirectory = .ok files.here.path :=
  if_pos h

theorem load_of_isNearest (hnames : files.WellNamed) (env : Environment) {above : Place}
    (h : IsNearest files above) :
    load env files none = Settings.ofFile files (projectFile above) := by
  refine load_none_of_loadScoped ?_ (readText_ne_notFound h.file)
  rw [loadScoped, workingDirectory_eq h.here]
  simp only [projectSettings?_of_isNearest hnames h]

theorem loadScoped_of_hasNoProject (hnames : files.WellNamed) (h : HasNoProject files) :
    loadScoped env files = loadUser env files := by
  rw [loadScoped, workingDirectory_eq h.here]
  simp only [projectSettings?_of_hasNoProject hnames h]

theorem userSettings?_eq_none_iff :
    userSettings? env = none ↔ env.get? "KEXP_HOME" = none ∧ env.userHome? = none := by
  rw [userSettings?, Option.map_eq_none_iff, programHome?]
  cases env.get? "KEXP_HOME" <;> simp

theorem loadUser_of_some {p : FilePath} (h : userSettings? env = some p) :
    loadUser env files = Settings.ofFile files p := by
  simp only [loadUser, userPath, h, bind, Except.bind]

/-- The file that counts is what a command goes by, unless it is the user's and nothing is there. -/
theorem load_of_isSelected (hnames : files.WellNamed) {config : Option FilePath} {p : FilePath}
    (h : IsSelected env files config p)
    (hthere : config = none → files.readText p ≠ .error .notFound) :
    load env files config = Settings.ofFile files p := by
  cases h with
  | asked => rfl
  | project h => exact load_of_isNearest hnames env h
  | user h huser =>
    refine load_none_of_loadScoped ?_ (hthere rfl)
    rw [loadScoped_of_hasNoProject hnames h, loadUser_of_some huser]

theorem load_of_hasNone (hnames : files.WellNamed) (h : HasNone env files) :
    load env files none = .ok {} := by
  cases h with
  | adrift h =>
    have hgone : files.workingDirectory = .error .notFound := if_neg h
    simp only [load, loadScoped, hgone]
  | homeless h hprogram huser =>
    have hnone : userSettings? env = none := userSettings?_eq_none_iff.2 ⟨hprogram, huser⟩
    simp only [load, loadScoped_of_hasNoProject hnames h, loadUser, userPath, hnone, bind,
      Except.bind]
  | absent h huser hread =>
    simp only [load, loadScoped_of_hasNoProject hnames h, loadUser_of_some huser, Settings.ofFile,
      hread]

theorem exists_isSelected (env : Environment) (files : FileTree) (config : Option FilePath) :
    (∃ p, IsSelected env files config p ∧
        (config = none → files.readText p ≠ .error .notFound)) ∨
      config = none ∧ HasNone env files := by
  cases config with
  | some p => exact .inl ⟨p, .asked, fun h => by cases h⟩
  | none =>
    by_cases hhere : files.find? files.here = some .directory
    · by_cases hproject : ∃ place, place <:+ files.here ∧ files.isFile (projectFile place) = true
      · obtain ⟨place, hplace, hfile⟩ := hproject
        obtain ⟨above, habove⟩ := exists_isNearest hhere hplace hfile
        exact .inl ⟨_, .project habove, fun _ => readText_ne_notFound habove.file⟩
      · have hno : HasNoProject files := by
          refine ⟨hhere, fun place hplace => Bool.eq_false_iff.2 fun hfile => ?_⟩
          exact hproject ⟨place, hplace, hfile⟩
        cases huser : userSettings? env with
        | none =>
          obtain ⟨hprogram, hhome⟩ := userSettings?_eq_none_iff.1 huser
          exact .inr ⟨rfl, .homeless hno hprogram hhome⟩
        | some p =>
          by_cases hread : files.readText p = .error .notFound
          · exact .inr ⟨rfl, .absent hno huser hread⟩
          · exact .inl ⟨p, .user hno huser, fun _ => hread⟩
    · exact .inr ⟨rfl, .adrift hhere⟩

end Load

/-! ### What the program makes of it -/

theorem run_of_load_error {arguments : List String} {i : Invocation}
    (hasked : asked arguments = .run i) (hrequest : i.request ≠ .version)
    {env : Environment} {files : FileTree} {e : ConfigError}
    (hload : load env files i.config = .error e) (architecture : String)
    (input : Listing.ByteStream) :
    run env architecture arguments input files =
      (78, ({ files } : Desk).report (CommandError.config e).message) := by
  rw [run_eq_answered hasked, runCommand]
  cases hcommand : i.request with
  | version => exact absurd hcommand hrequest
  | doctor | filter request | build request =>
    simp only [runConfigured, hload]
    rfl

/-- A command goes by the one file that counts, or by the defaults where there is none. The nearest
project decides whatever else there is, and a file that counts and is no configuration ends the
command. -/
theorem load_precedence (env : Environment) (config : Option FilePath) {files : FileTree}
    (hnames : files.WellNamed) :
    (∀ p p', IsSelected env files config p → IsSelected env files config p' → p = p') ∧
    ((∃ p, IsSelected env files config p ∧ load env files config = Settings.ofFile files p) ∨
      load env files config = .ok {} ∧ config = none ∧ HasNone env files) ∧
    (∀ place, files.find? files.here = some .directory → place <:+ files.here →
      files.isFile (projectFile place) = true →
        ∃ above, IsNearest files above ∧ ∀ env' files', files'.WellNamed →
          IsNearest files' above →
          files'.readText (projectFile above) = files.readText (projectFile above) →
            load env' files' none = Settings.ofFile files (projectFile above)) ∧
    (∀ p document e, IsSelected env files config p → files.readText p = .ok document →
      Settings.ofText document = .error e →
        load env files config = .error e ∧
        ∀ arguments i, asked arguments = .run i → i.config = config → i.request ≠ .version →
          ∀ architecture input, run env architecture arguments input files =
            (78, ({ files } : Desk).report (CommandError.config e).message)) := by
  refine ⟨fun p p' => IsSelected.unique, ?_, ?_, ?_⟩
  · rcases exists_isSelected env files config with ⟨p, hp, hthere⟩ | ⟨rfl, hnone⟩
    · exact .inl ⟨p, hp, load_of_isSelected hnames hp hthere⟩
    · exact .inr ⟨load_of_hasNone hnames hnone, rfl, hnone⟩
  · intro place hhere hplace hfile
    obtain ⟨above, habove⟩ := exists_isNearest hhere hplace hfile
    refine ⟨above, habove, fun env' files' hnames' habove' hread => ?_⟩
    rw [load_of_isNearest hnames' env' habove', Settings.ofFile, Settings.ofFile, hread]
  · intro p document e hp hread hbroken
    have hload : load env files config = .error e := by
      rw [load_of_isSelected hnames hp (fun _ => by simp [hread]), ofFile_of_readText hread,
        hbroken]
    refine ⟨hload, ?_⟩
    rintro arguments i hasked rfl hrequest architecture input
    exact run_of_load_error hasked hrequest hload architecture input

/-! ### A broken project in a sound one -/

/-- A project with a document that is no configuration, inside of one with an empty document. -/
def nestedProjects : FileTree where
  nodes :=
    [(["w"], .directory), ([".kexp", "w"], .directory),
      (["config.toml", ".kexp", "w"], .file [91] false), ([".kexp"], .directory),
      (["config.toml", ".kexp"], .file [] false)]
  here := ["w"]

def outerEnvironment : Environment := ⟨[("KEXP_HOME", "/.kexp")], none, "1"⟩

theorem isNearest_innerProject :
    nestedProjects.WellNamed ∧ IsNearest nestedProjects ["w"] ∧
      nestedProjects.readText (projectFile ["w"]) = .ok "[" ∧
      Settings.ofText "[" = .error .malformed ∧
      asked ["doctor"] = .run ⟨false, none, .doctor⟩ := by
  -- What is computed from texts, in one go.
  obtain ⟨hnames, habsolute, hzero, hpath, hsteps, hshort, hstrict, hparse, hasked⟩ :
      (∀ entry ∈ nestedProjects.nodes, ∀ name ∈ entry.1, IsEntryName name) ∧
      (projectFile ["w"]).isAbsolute = true ∧ '\x00' ∉ (projectFile ["w"]).text.toList ∧
      (projectFile ["w"]).text.utf8ByteSize < FileTree.maxPath ∧
      (projectFile ["w"]).steps = ["w", ".kexp", "config.toml"] ∧
      (∀ name ∈ ["w", ".kexp", "config.toml"], ¬FileTree.maxName < name.utf8ByteSize) ∧
      Text.Utf8.strict? [91] = some "[" ∧ Toml.parse? "[" = none ∧
      asked ["doctor"] = .run ⟨false, none, .doctor⟩ := by decide +kernel
  simp only [List.forall_mem_cons] at hshort
  have hlocate : nestedProjects.locate (projectFile ["w"]) =
      .ok ["config.toml", ".kexp", "w"] := by
    rw [FileTree.locate_of_isAbsolute _ habsolute hzero hpath, hsteps]
    simp [FileTree.walk, FileTree.find?, nestedProjects, hshort]
  have hnode : nestedProjects.find? ["config.toml", ".kexp", "w"] = some (.file [91] false) := by
    decide
  refine ⟨hnames, ⟨by decide, List.suffix_rfl, ?_, ?_⟩, ?_, ?_, hasked⟩
  · exact FileTree.isFile_iff.2 ⟨_, _, hlocate, hnode, rfl⟩
  · intro place hplace hlonger
    exact absurd hplace.length_le (Nat.not_le.2 hlonger)
  · exact FileTree.readText_of_status (FileTree.status_of_locate hlocate hnode) hstrict
  · rw [Settings.ofText, hparse]

/-- The command fails, although the outer project and the home hold a configuration. -/
theorem load_precedence_nestedProjects :
    nestedProjects.WellNamed ∧
      IsSelected outerEnvironment nestedProjects none (projectFile ["w"]) ∧
      load outerEnvironment nestedProjects none = .error .malformed ∧
      (run outerEnvironment "x86_64" ["doctor"] (.ofBytes []) nestedProjects).1 = 78 := by
  obtain ⟨hnames, hnearest, hread, hbroken, hasked⟩ := isNearest_innerProject
  have hselected : IsSelected outerEnvironment nestedProjects none (projectFile ["w"]) :=
    .project hnearest
  obtain ⟨-, -, -, hends⟩ := load_precedence outerEnvironment none hnames
  obtain ⟨hload, hrun⟩ := hends _ _ _ hselected hread hbroken
  refine ⟨hnames, hselected, hload, ?_⟩
  rw [hrun _ _ hasked rfl (by simp)]

end SnippetLens.Cli
