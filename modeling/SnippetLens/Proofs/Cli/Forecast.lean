import SnippetLens.Proofs.Build.Errors
import SnippetLens.Proofs.Build.Trace
import SnippetLens.Proofs.Cli.Commands
import SnippetLens.Proofs.Toolchain.NewDirectory

/-!
What `doctor` says of a build.

Both commands load the configuration, make the scratch directory, find the toolchain and look for
its locations, each in its own words. `Check` tells what they come to: that all is there, or the
failure of a build. What `doctor` answers is read from it, and so is what a build does that does not
get past it: it ends with that failure before it has asked for a tool or shown anything.

The commands are two processes. The number of a process is part of the name of its scratch
directory, if the configuration names none. So a build may fail where `doctor` did not, as when
something else stands under the name of its directory. Where both directories are new and the
toolchain is looked for elsewhere, the checks come to the same for either number.
-/

namespace SnippetLens.Cli

open Files Toolchain Build Config

variable {ρ : Type}

/-! ### What both commands check -/

/-- What the checks come to, and the file tree after them: the failure of a build that does not get
past them, or none. -/
inductive Check (env : Environment) (files : FileTree) (config : Option FilePath) :
    Option CommandError → FileTree → Prop where
  | settings {e : ConfigError} (hload : load env files config = .error e) :
    Check env files config (some (.config e)) files
  | scratch {s : Settings} {cause : Failure} {left : FileTree}
    (hload : load env files config = .ok s)
    (hplan : Plan.ofSettings env files s none = (.error (.io cause), left)) :
    Check env files config (some (.build (.io cause))) left
  | discovery {s : Settings} {e : DiscoveryError} {left : FileTree}
    (hload : load env files config = .ok s)
    (hplan : Plan.ofSettings env files s none = (.error (.discovery e), left)) :
    Check env files config (some (.build (.discovery e))) left
  | missing {s : Settings} {plan : Plan} {left : FileTree}
    (hload : load env files config = .ok s)
    (hplan : Plan.ofSettings env files s none = (.ok plan, left))
    (hmissing : plan.locations.missing left ≠ []) :
    Check env files config (some (.build (.missingTools (plan.locations.missing left)))) left
  | passed {s : Settings} {plan : Plan} {left : FileTree}
    (hload : load env files config = .ok s)
    (hplan : Plan.ofSettings env files s none = (.ok plan, left))
    (hmissing : plan.locations.missing left = []) : Check env files config none left

theorem ofSettings_error {env : Environment} {files left : FileTree} {s : Settings}
    {scratch : Option FilePath} {e : BuildError}
    (h : Plan.ofSettings env files s scratch = (.error e, left)) :
    (∃ cause, e = .io cause) ∨ ∃ failure, e = .discovery failure := by
  unfold Plan.ofSettings at h
  split at h
  · cases h
    exact .inl ⟨_, rfl⟩
  · split at h
    · cases h
      exact .inr ⟨_, rfl⟩
    · cases h

theorem exists_check (env : Environment) (files : FileTree) (config : Option FilePath) :
    ∃ failure left, Check env files config failure left := by
  cases hload : load env files config with
  | error e => exact ⟨_, _, .settings hload⟩
  | ok s =>
    rcases hplan : Plan.ofSettings env files s none with ⟨e | plan, left⟩
    · obtain ⟨cause, rfl⟩ | ⟨failure, rfl⟩ := ofSettings_error hplan
      · exact ⟨_, _, .scratch hload hplan⟩
      · exact ⟨_, _, .discovery hload hplan⟩
    · by_cases hmissing : plan.locations.missing left = []
      · exact ⟨_, _, .passed hload hplan hmissing⟩
      · exact ⟨_, _, .missing hload hplan hmissing⟩

section Check

variable {env : Environment} {files left : FileTree} {config : Option FilePath}

theorem Check.unique {failure failure' : Option CommandError} {left' : FileTree}
    (h : Check env files config failure left) (h' : Check env files config failure' left') :
    failure = failure' ∧ left = left' := by
  -- Both have read the same settings and made the same plan of them.
  cases h <;> cases h' <;> simp_all

/-! ### Doctor -/

theorem runDoctor_of_missing {s : Settings} {plan : Plan}
    (hplan : Plan.ofSettings env files s none = (.ok plan, left))
    (hmissing : plan.locations.missing left ≠ []) :
    runDoctor env s { files } = (.error (.toolsMissing (plan.locations.missing left).length),
      { files := left, output := locationReport left plan.locations }) := by
  unfold runDoctor
  simp only [hplan]
  split
  · rename_i hlength
    exact absurd (List.length_eq_zero_iff.1 hlength) hmissing
  · simp only [Desk.print, String.empty_append]

/-- The exit code of `doctor` tells whether there is a failure, and which one. -/
theorem doctor_of_check {failure : Option CommandError} (h : Check env files config failure left) :
    (answered (runConfigured env config { files } (runDoctor env))).1 =
        (failure.map CommandError.exitCode).getD 0 ∧
      (answered (runConfigured env config { files } (runDoctor env))).2.files = left := by
  unfold runConfigured
  cases h with
  | settings hload =>
    simp only [hload]
    exact ⟨rfl, rfl⟩
  | scratch hload hplan | discovery hload hplan =>
    simp only [hload, runDoctor, hplan]
    exact ⟨rfl, rfl⟩
  | passed hload hplan hmissing =>
    simp only [hload, runDoctor, hplan, hmissing]
    exact ⟨rfl, rfl⟩
  | missing hload hplan hmissing =>
    simp only [hload, runDoctor_of_missing hplan hmissing]
    exact ⟨rfl, rfl⟩

def missingLines (files : FileTree) (l : Locations) : List String :=
  (l.labelled.map (locationLine files)).filter (Text.startsWith "[missing]")

theorem startsWith_locationLine (files : FileTree) (entry : String × FilePath) :
    Text.startsWith "[missing]" (locationLine files entry) = !files.reaches entry.2 := by
  have hpadded : padded 10 "[missing]" = "[missing] " ∧ padded 10 "[ok]" = "[ok]      " := by
    decide
  cases hreaches : files.reaches entry.2 with
  | true =>
    simp only [Text.startsWith, locationLine, hreaches, if_true, hpadded.2, String.toList_append,
      String.append_assoc]
    rfl
  | false =>
    simp only [Text.startsWith, locationLine, hreaches, Bool.false_eq_true, if_false, hpadded.1,
      String.toList_append, String.append_assoc]
    rfl

theorem missingLines_eq (files : FileTree) (l : Locations) :
    missingLines files l = (l.missing files).map (locationLine files) := by
  have hsame : ∀ entry ∈ l.labelled,
      (Text.startsWith "[missing]" ∘ locationLine files) entry = !files.reaches entry.2 := by
    intro entry _
    rw [Function.comp_apply, startsWith_locationLine]
  rw [missingLines, List.filter_map, List.filter_congr hsame, Locations.missing]

/-! ### Build -/

/-- What a build is asked for has no part in finding the toolchain. -/
theorem ofSettings_buildSettings (env : Environment) (files : FileTree) (s : Settings)
    (request : BuildRequest) (scratch : Option FilePath) :
    Plan.ofSettings env files (buildSettings s request) scratch =
      ((Plan.ofSettings env files s scratch).1.map fun plan =>
          { plan with options := .ofSettings (buildSettings s request) },
        (Plan.ofSettings env files s scratch).2) := by
  have htoolchain : (buildSettings s request).toolchain = s.toolchain := by
    unfold buildSettings
    split <;> rfl
  have hscratch : (buildSettings s request).build.scratch = s.build.scratch := by
    unfold buildSettings
    split <;> rfl
  unfold Plan.ofSettings
  rw [htoolchain, hscratch]
  cases scratchDirectory env files (scratch.or s.build.scratch) with
  | error cause => rfl
  | ok made =>
    obtain ⟨dir, left⟩ := made
    dsimp only
    cases discover env left s.toolchain dir <;> rfl

theorem exists_plan_of_request {env : Environment} {files left : FileTree} {s : Settings}
    {scratch : Option FilePath} {plan : Plan}
    (h : Plan.ofSettings env files s scratch = (.ok plan, left)) (request : BuildRequest) :
    ∃ made, Plan.ofSettings env files (buildSettings s request) scratch = (.ok made, left) ∧
      made.locations = plan.locations := by
  rw [ofSettings_buildSettings, h]
  exact ⟨_, rfl, rfl⟩

theorem load_processId (env : Environment) (files : FileTree) (config : Option FilePath)
    (number : String) :
    load { env with processId := number } files config = load env files config :=
  rfl

/-- The number of a process has no part in finding the toolchain, if the configuration names a
scratch directory. -/
theorem ofSettings_processId (env : Environment) (files : FileTree) {s : Settings}
    (h : s.build.scratch.isSome = true) (number : String) :
    Plan.ofSettings { env with processId := number } files s none =
      Plan.ofSettings env files s none := by
  obtain ⟨dir, hdir⟩ := Option.isSome_iff_exists.1 h
  unfold Plan.ofSettings
  rw [hdir]
  rfl

/-- What the checks come to where no scratch directory is seen: what discovery comes to, and which
of the tools are missing. -/
def unseenFailure (env : Environment) (files : FileTree) (hints : Hints) : Option CommandError :=
  match discover env files hints ⟨""⟩ with
  | .error e => some (.build (.discovery e))
  | .ok l =>
    let missing := l.tools.filter fun entry => !files.reaches entry.2
    if missing = [] then none else some (.build (.missingTools missing))

theorem check_of_isScratchIn {s : Settings} {above : Place} {number : String}
    (hload : load env files config = .ok s) (hscratch : s.build.scratch = none)
    (h : IsScratchIn env s.toolchain files above number) :
    Check { env with processId := number } files config (unseenFailure env files s.toolchain)
      (files.put (scratchName number :: above) .directory) := by
  have hplan := ofSettings_of_isScratchIn hscratch h
  rw [← load_processId env files config number] at hload
  unfold unseenFailure
  cases hfound : discover env files s.toolchain ⟨""⟩ with
  | error e =>
    simp only [hfound] at hplan
    exact .discovery hload hplan
  | ok l =>
    simp only [hfound] at hplan
    have hmissing := h.missing_eq hfound
    dsimp only
    rw [← hmissing]
    split_ifs with hnone
    · exact .passed hload hplan hnone
    · have hcheck := Check.missing hload hplan hnone
      exact hcheck

/-- Whether another process sees the same toolchain: it has the same number, or the configuration
names the scratch directory, or both make a new one that is not seen from elsewhere. -/
def SeesAlike (env : Environment) (files : FileTree) (config : Option FilePath) (number : String) :
    Prop :=
  number = env.processId ∨ ∀ s, load env files config = .ok s → s.build.scratch.isSome = true ∨
    ∃ above, IsScratchIn env s.toolchain files above env.processId ∧
      IsScratchIn env s.toolchain files above number

theorem Check.of_same {env' : Environment} {failure : Option CommandError}
    (h : Check env files config failure left)
    (hload : load env' files config = load env files config)
    (hplan : ∀ s, load env files config = .ok s →
      Plan.ofSettings env' files s none = Plan.ofSettings env files s none) :
    Check env' files config failure left := by
  cases h with
  | settings hfailed => exact .settings (hload.trans hfailed)
  | scratch hloaded hfailed => exact .scratch (hload.trans hloaded) ((hplan _ hloaded).trans hfailed)
  | discovery hloaded hfailed =>
    exact .discovery (hload.trans hloaded) ((hplan _ hloaded).trans hfailed)
  | missing hloaded hmade hmissing =>
    exact .missing (hload.trans hloaded) ((hplan _ hloaded).trans hmade) hmissing
  | passed hloaded hmade hmissing =>
    exact .passed (hload.trans hloaded) ((hplan _ hloaded).trans hmade) hmissing

theorem Check.of_seesAlike {failure : Option CommandError} {number : String}
    (h : Check env files config failure left) (hsees : SeesAlike env files config number) :
    ∃ left, Check { env with processId := number } files config failure left := by
  obtain rfl | hsettings := hsees
  · exact ⟨left, h⟩
  by_cases hunnamed : ∃ s, load env files config = .ok s ∧ s.build.scratch = none
  · obtain ⟨s, hload, hscratch⟩ := hunnamed
    obtain ⟨above, hdoctor, hbuild⟩ := (hsettings s hload).resolve_left (by simp [hscratch])
    obtain ⟨rfl, -⟩ := h.unique (check_of_isScratchIn hload hscratch hdoctor)
    exact ⟨_, check_of_isScratchIn hload hscratch hbuild⟩
  · refine ⟨left, h.of_same (load_processId env files config number) fun s hload => ?_⟩
    refine ofSettings_processId env files (Option.isSome_iff_ne_none.2 fun hnone => ?_) number
    exact hunnamed ⟨s, hload, hnone⟩

section Input

variable {request : BuildRequest} {source : String} (hscratch : request.scratch = none)
  (hinput : files.isFile request.input = true)
  (hsource : files.readText request.input = .ok source)

include hscratch hinput hsource

/-- A build that does not get past the checks ends with their failure. It has asked for no tool and
shown nothing, and has changed no file but what the checks change. -/
theorem buildWith_of_check {failure : CommandError} (h : Check env files config (some failure) left)
    (runnerOf : Settings → Runner ρ) (r : ρ) (quiet : Bool) :
    buildWith runnerOf r env config quiet request { files } =
      ((.error failure, { files := left }), r) := by
  cases h with
  | settings hload =>
    unfold buildWith
    simp only [hload]
  | scratch hload hplan | discovery hload hplan =>
    refine buildWith_of_no_plan hload hinput hsource ?_ runnerOf r quiet
    rw [hscratch, ofSettings_buildSettings, hplan]
    rfl
  | @missing s plan _ hload hplan hmissing =>
    -- The plan of the build has other options than that of `doctor`, and the same locations.
    obtain ⟨made, hmade, hlocations⟩ := exists_plan_of_request hplan request
    rw [← hlocations] at hmissing ⊢
    rw [← hscratch] at hmade
    have hplanned : IsPlanned env files config request s source made left :=
      ⟨hload, hinput, hsource, hmade⟩
    rw [hplanned.buildWith_eq, Plan.run_of_missing hmissing]
    rfl

end Input

end Check

/-! ### The forecast -/

/-- Whether a build gets past discovery and the check of its locations: it comes to a plan and is the
run of that plan, and with whatever runner the run ends in an outcome, or in an error of the
workspace, which comes after the checks. -/
def GetsPast (env : Environment) (files : FileTree) (config : Option FilePath) (quiet : Bool)
    (request : BuildRequest) : Prop :=
  ∃ s source plan prepared, IsPlanned env files config request s source plan prepared ∧
    ∀ {ρ : Type} (runnerOf : Settings → Runner ρ) (r : ρ),
      let ran := plan.run (runnerOf (buildSettings s request)) r (.start source prepared {})
      buildWith runnerOf r env config quiet request { files } =
          (showBuild quiet request ran.1 ran.2.1.channel.waiting { files := ran.2.1.files },
            ran.2.2) ∧
        ∀ e, ran.1 = .error e → ∃ cause, e = .workspace cause

/-- With all locations there, only the workspace can keep a build from an outcome. -/
theorem run_error_of_located {plan : Plan} {files : FileTree}
    (h : plan.locations.missing files = []) (runner : Runner ρ) (r : ρ) (source : String)
    {e : BuildError} (he : (plan.run runner r (.start source files {})).1 = .error e) :
    ∃ cause, e = .workspace cause := by
  obtain ⟨result, left, events, r', hgoes, hrun⟩ := plan.exists_goes runner r source files
  rw [hrun] at he
  cases hgoes with
  | refused hsetUp =>
    obtain rfl := Except.error.inj he
    obtain ⟨-, hmissing, -⟩ | ⟨hcause, -⟩ := Plan.setUp_eq_error hsetUp
    · exact absurd h hmissing
    · exact hcause
  | stuck =>
    obtain rfl := Except.error.inj he
    exact ⟨_, rfl⟩
  | ended => cases he

theorem getsPast_iff {env : Environment} {files : FileTree} {config : Option FilePath}
    {quiet : Bool} {request : BuildRequest} {source : String} (hscratch : request.scratch = none)
    (hinput : files.isFile request.input = true)
    (hsource : files.readText request.input = .ok source) :
    GetsPast env files config quiet request ↔ ∃ left, Check env files config none left := by
  constructor
  · rintro ⟨s, source, plan, left, hplanned, hran⟩
    have hlocated : plan.locations.missing left = [] := by
      by_contra hmissing
      obtain ⟨-, herror⟩ := hran (fun _ => quietRunner) ()
      rw [Plan.run_of_missing hmissing] at herror
      obtain ⟨cause, hcause⟩ := herror _ rfl
      cases hcause
    have hplan := hplanned.ofSettings
    rw [hscratch, ofSettings_buildSettings] at hplan
    obtain ⟨hmade, hleft⟩ := Prod.mk.inj hplan
    rcases hfound : Plan.ofSettings env files s none with ⟨e | found, after⟩
    · rw [hfound] at hmade
      cases hmade
    · rw [hfound] at hmade hleft
      obtain rfl := hleft
      obtain rfl := Except.ok.inj hmade
      exact ⟨after, .passed hplanned.load hfound hlocated⟩
  · rintro ⟨left, hcheck⟩
    cases hcheck with
    | @passed s _ _ hload hplan hmissing =>
      obtain ⟨made, hmade, hlocations⟩ := exists_plan_of_request hplan request
      have hplanned : IsPlanned env files config request s source made left :=
        ⟨hload, hinput, hsource, hscratch ▸ hmade⟩
      refine ⟨s, source, made, left, hplanned, fun runnerOf r => ⟨?_, fun e he => ?_⟩⟩
      · exact hplanned.buildWith_eq runnerOf r quiet
      · exact run_error_of_located (hlocations ▸ hmissing) _ r source he

theorem Check.exitCode_ne_zero {env : Environment} {files left : FileTree}
    {config : Option FilePath} {failure : CommandError}
    (h : Check env files config (some failure) left) : failure.exitCode ≠ 0 := by
  cases h <;> simp [CommandError.exitCode]

/-- How `doctor` foretells the failure of a build: by the exit code, which tells whether it is the
configuration, the scratch directory or the toolchain, and by its lines. -/
structure Foretold (env : Environment) (files : FileTree) (config : Option FilePath)
    (failure : CommandError) (doctor : Nat × Desk) : Prop where
  cause : Check env files config (some failure) doctor.2.files
  settings : doctor.1 = 78 ↔ ∃ e, failure = .config e
  scratch : doctor.1 = 74 ↔ ∃ cause, failure = .build (.io cause)
  toolchain : doctor.1 = 69 ↔ (∃ e, failure = .build (.discovery e)) ∨
    ∃ missing, failure = .build (.missingTools missing)
  lines : ∀ missing, failure = .build (.missingTools missing) → ∃ l : Locations,
    doctor.2.output = locationReport doctor.2.files l ∧
      missingLines doctor.2.files l = missing.map (locationLine doctor.2.files)

theorem foretold_of_check {env : Environment} {files left : FileTree} {config : Option FilePath}
    {failure : CommandError} (h : Check env files config (some failure) left) :
    Foretold env files config failure
      (answered (runConfigured env config { files } (runDoctor env))) := by
  obtain ⟨hcode, hleft⟩ := doctor_of_check h
  have hexit : (answered (runConfigured env config { files } (runDoctor env))).1 =
      failure.exitCode := hcode
  refine ⟨hleft ▸ h, ?_, ?_, ?_, ?_⟩
  · rw [hexit]
    cases h <;> simp [CommandError.exitCode]
  · rw [hexit]
    cases h <;> simp [CommandError.exitCode]
  · rw [hexit]
    cases h <;> simp [CommandError.exitCode]
  · rintro missing rfl
    rw [hleft]
    cases h with
    | @missing s plan _ hload hplan hmissing =>
      refine ⟨plan.locations, ?_, missingLines_eq left plan.locations⟩
      simp only [runConfigured, hload, runDoctor_of_missing hplan hmissing, output_answered]

theorem asked_smallDoctor : asked ["-c", "/t", "doctor"] = .run ⟨false, some ⟨"/t"⟩, .doctor⟩ := by
  decide +kernel

theorem processId_small : ∀ env ∈ [smallEnvironment "1", bareEnvironment "1"],
    env.processId ∈ ["1", "3"] := by
  decide

theorem seesAlike_smallTree {env : Environment}
    (henv : env ∈ [smallEnvironment "1", bareEnvironment "1"]) :
    SeesAlike env smallTree (some ⟨"/t"⟩) "3" := by
  refine .inr fun s hload => .inr ⟨["w"], ?_, ?_⟩
  · obtain rfl := Except.ok.inj ((load_smallTree env).symm.trans hload)
    exact isScratchIn_smallTree henv (processId_small env henv)
  · obtain rfl := Except.ok.inj ((load_smallTree env).symm.trans hload)
    exact isScratchIn_smallTree henv (by decide)

theorem doctor_smallTree {env : Environment}
    (henv : env ∈ [smallEnvironment "1", bareEnvironment "1"]) :
    (run env "x86_64" ["-c", "/t", "doctor"] (.ofBytes []) smallTree).1 =
      ((unseenFailure env smallTree {}).map CommandError.exitCode).getD 0 := by
  have hcheck := check_of_isScratchIn (load_smallTree env) rfl
    (isScratchIn_smallTree henv (processId_small env henv))
  rw [run_doctor asked_smallDoctor]
  exact (doctor_of_check hcheck).1

theorem doctor_smallEnvironment :
    (run (smallEnvironment "1") "x86_64" ["-c", "/t", "doctor"] (.ofBytes []) smallTree).1 = 0 := by
  rw [doctor_smallTree (by decide), unseenFailure, discover_smallTree]
  simp [missing_smallTools]

end SnippetLens.Cli
