import SnippetLens.Cli.Run
import SnippetLens.Proofs.Build.Run
import SnippetLens.Proofs.Toolchain.NewDirectory

/-!
The commands that use the toolchain, with their configuration.

A command ends with a result and a desk, and the program makes an exit code and the words for a
failure of them. The build is told here with any runner of tools, whose state it hands on: what
becomes of that state is what the build asks of its tools. With the runner of the program it is the
command itself.
-/

namespace SnippetLens.Cli

open Files Toolchain Build Config

variable {ρ : Type}

def answered : Except CommandError Unit × Desk → Nat × Desk
  | (.ok (), d) => (0, d)
  | (.error e, d) => (e.exitCode, d.report e.message)

def failureLine : Except CommandError Unit → String
  | .ok () => ""
  | .error e => e.message ++ "\n"

theorem run_eq_answered {arguments : List String} {i : Invocation}
    (h : asked arguments = .run i) (env : Toolchain.Environment) (architecture : String)
    (input : Listing.ByteStream) (files : FileTree) :
    run env architecture arguments input files =
      answered (runCommand env architecture input i { files }) := by
  unfold run
  rw [h]
  dsimp only
  rcases runCommand env architecture input i { files } with ⟨_ | _, _⟩ <;> rfl

section Answered

variable (result : Except CommandError Unit) (d : Desk)

theorem files_answered : (answered (result, d)).2.files = d.files := by
  cases result <;> rfl

theorem output_answered : (answered (result, d)).2.output = d.output := by
  cases result <;> rfl

theorem errors_answered :
    (answered (result, d)).2.errors = d.errors ++ failureLine result := by
  cases result with
  | ok => exact String.append_empty.symm
  | error e => exact String.append_assoc ..

end Answered

/-! ### Doctor and build -/

theorem run_doctor {arguments : List String} {quiet : Bool} {config : Option FilePath}
    (h : asked arguments = .run ⟨quiet, config, .doctor⟩) (env : Environment)
    (architecture : String) (input : Listing.ByteStream) (files : FileTree) :
    run env architecture arguments input files =
      answered (runConfigured env config { files } (runDoctor env)) :=
  run_eq_answered h env architecture input files

def toolRunner (env : Environment) (s : Settings) : Runner Unit :=
  Tool.systemRunner env (Tool.timeLimit s)

/-- The command that builds a file, with any runner: its result, and the state of the runner. -/
def buildWith (runnerOf : Settings → Runner ρ) (r : ρ) (env : Environment)
    (config : Option FilePath) (quiet : Bool) (request : BuildRequest) (d : Desk) :
    (Except CommandError Unit × Desk) × ρ :=
  match load env d.files config with
  | .error e => ((.error (.config e), d), r)
  | .ok s =>
    if !d.files.isFile request.input then ((.error (.inputMissing request.input), d), r)
    else
      match d.files.readText request.input with
      | .error cause => ((.error (.io cause), d), r)
      | .ok source =>
        match Plan.ofSettings env d.files (buildSettings s request) request.scratch with
        | (.error e, files) => ((.error (.build e), { d with files }), r)
        | (.ok plan, files) =>
          let (outcome, b, r) :=
            plan.run (runnerOf (buildSettings s request)) r (.start source files {})
          (showBuild quiet request outcome b.channel.waiting { d with files := b.files }, r)

theorem run_build {arguments : List String} {quiet : Bool} {config : Option FilePath}
    {request : BuildRequest} (h : asked arguments = .run ⟨quiet, config, .build request⟩)
    (env : Environment) (architecture : String) (input : Listing.ByteStream) (files : FileTree) :
    run env architecture arguments input files =
      answered (buildWith (toolRunner env) () env config quiet request { files }).1 := by
  rw [run_eq_answered h]
  congr 1
  show runConfigured env config { files } (fun s => runBuild env s quiet request) = _
  unfold runConfigured buildWith
  cases load env files config with
  | error e => rfl
  | ok s =>
    unfold runBuild
    cases hinput : files.isFile request.input with
    | false => simp [hinput]
    | true =>
      simp only [hinput, Bool.not_true, Bool.false_eq_true, if_false]
      cases files.readText request.input with
      | error cause => rfl
      | ok source =>
        dsimp only
        rcases Plan.ofSettings env files (buildSettings s request) request.scratch with
          ⟨e | plan, prepared⟩ <;> rfl

/-- Whether a build of a file has come to its plan, with the source and the file tree as they are
then. -/
structure IsPlanned (env : Environment) (files : FileTree) (config : Option FilePath)
    (request : BuildRequest) (s : Settings) (source : String) (plan : Plan) (prepared : FileTree) :
    Prop where
  load : load env files config = .ok s
  isFile : files.isFile request.input = true
  readText : files.readText request.input = .ok source
  ofSettings : Plan.ofSettings env files (buildSettings s request) request.scratch =
    (.ok plan, prepared)

section Plan

variable {env : Environment} {config : Option FilePath} {request : BuildRequest}
  {files prepared : FileTree} {s : Settings} {source : String}

theorem IsPlanned.buildWith_eq {plan : Plan}
    (h : IsPlanned env files config request s source plan prepared)
    (runnerOf : Settings → Runner ρ) (r : ρ) (quiet : Bool) :
    buildWith runnerOf r env config quiet request { files } =
      let (outcome, b, r) :=
        plan.run (runnerOf (buildSettings s request)) r (.start source prepared {})
      (showBuild quiet request outcome b.channel.waiting { files := b.files }, r) := by
  unfold buildWith
  simp only [h.load, h.isFile, h.readText, h.ofSettings, Bool.not_true, Bool.false_eq_true,
    if_false]

theorem buildWith_of_no_plan {e : BuildError} (hload : load env files config = .ok s)
    (hinput : files.isFile request.input = true)
    (hsource : files.readText request.input = .ok source)
    (hplan : Plan.ofSettings env files (buildSettings s request) request.scratch =
      (.error e, prepared))
    (runnerOf : Settings → Runner ρ) (r : ρ) (quiet : Bool) :
    buildWith runnerOf r env config quiet request { files } =
      ((.error (.build e), { files := prepared }), r) := by
  unfold buildWith
  simp only [hload, hinput, hsource, hplan, Bool.not_true, Bool.false_eq_true, if_false]

end Plan

/-- The plan of a process that makes a new scratch directory, by what discovery comes to without
it. -/
theorem ofSettings_of_isScratchIn {env : Environment} {files : FileTree} {s : Settings}
    {above : Place} {number : String} (hscratch : s.build.scratch = none)
    (h : IsScratchIn env s.toolchain files above number) :
    Plan.ofSettings { env with processId := number } files s none =
      match discover env files s.toolchain ⟨""⟩ with
      | .error e => (.error (.discovery e), files.put (scratchName number :: above) .directory)
      | .ok l =>
        (.ok ⟨{ l with scratch := Place.path (scratchName number :: above) }, .ofSettings s⟩,
          files.put (scratchName number :: above) .directory) := by
  have hdiscover : discover { env with processId := number }
      (files.put (scratchName number :: above) .directory) s.toolchain
        (Place.path (scratchName number :: above)) = _ := h.discover_eq
  unfold Plan.ofSettings
  rw [hscratch, Option.or_none, h.scratchDirectory_eq]
  dsimp only
  rw [hdiscover]
  cases discover env files s.toolchain ⟨""⟩ <;> rfl

/-! ### A small toolchain

An empty configuration, and an empty file to build. -/

theorem isFile_smallInput : smallTree.isFile ⟨"/t"⟩ = true :=
  isFile_small ["t"] (by decide)

theorem readText_smallInput : smallTree.readText ⟨"/t"⟩ = .ok "" := by
  have hinput : (⟨"/t"⟩, ["t"], .file [] true) ∈ smallNodes := by decide
  have hstatus : smallTree.status ⟨"/t"⟩ = .ok (.file [] true) := (status_small hinput).1
  have hstrict : Text.Utf8.strict? [] = some "" := by decide
  exact FileTree.readText_of_status hstatus hstrict

theorem load_smallTree (env : Environment) : load env smallTree (some ⟨"/t"⟩) = .ok {} := by
  have hparse : Toml.parse? "" = some [] := rfl
  simp only [load, Settings.ofFile, readText_smallInput, Settings.ofText, hparse]
  rfl

theorem asked_smallBuild :
    asked ["-c", "/t", "build", "/t"] = .run ⟨false, some ⟨"/t"⟩, .build { input := ⟨"/t"⟩ }⟩ := by
  decide +kernel

theorem isPlanned_smallTree : ∃ plan prepared,
    IsPlanned (smallEnvironment "1") smallTree (some ⟨"/t"⟩) { input := ⟨"/t"⟩ } {} "" plan
      prepared := by
  have hscratch : IsScratchIn (smallEnvironment "1") {} smallTree ["w"] "1" :=
    isScratchIn_smallTree (by decide) (by decide)
  have hplan := ofSettings_of_isScratchIn (s := {}) rfl hscratch
  rw [discover_smallTree] at hplan
  exact ⟨_, _, load_smallTree _, isFile_smallInput, readText_smallInput, hplan⟩

end SnippetLens.Cli
