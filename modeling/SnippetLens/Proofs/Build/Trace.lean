import SnippetLens.Proofs.Build.Run
import SnippetLens.Proofs.Files.Walk

/-!
What a build does to the outside: the calls that it makes, and the messages that it sends.

Whatever a runner answers, a build calls it once for each stage up to the first one whose tool
fails, and for no later one, with the command of that stage in the scratch directory. The messages
are those of the stages called for, one stage after the other, and at the end that the build is
ready, if no tool failed.

This needs that the build itself can do its part: find its locations, write its files and, once the
compiler succeeded, make the optimizer's command. The run over the stages carries this along as
`Prepares`, which asks it only of the stages that are reached.
-/

namespace SnippetLens.Build

open Files Toolchain

variable {ρ : Type}

/-! ### Courses -/

/-- How the answers of the tools decide which stages are called for and how a build ends. -/
inductive Course : List Stage → List (Stage × Call) → Outcome → Prop where
  /-- No stage is left. -/
  | ready : Course [] [] .completed
  /-- The tool of a stage fails, and no later one is called for. -/
  | stopped {stage : Stage} {rest : List Stage} {call : Call} (hfailed : call.result.exitCode ≠ 0) :
    Course (stage :: rest) [(stage, call)] (.failed stage)
  /-- The tool of a stage succeeds, and the stages behind it follow. -/
  | passed {stage : Stage} {rest : List Stage} {call : Call} {made : List (Stage × Call)}
    {outcome : Outcome} (hsucceeded : call.result.exitCode = 0) (hrest : Course rest made outcome) :
    Course (stage :: rest) ((stage, call) :: made) outcome

namespace Plan

def Asks (plan : Plan) (stage : Stage) (call : Call) : Prop :=
  call.directory = plan.scratch ∧ plan.commandIn call.files stage = .ok call.command

def stageMessages (plan : Plan) (stage : Stage) (result : ToolResult) : List Event :=
  .status (stage.status plan.options.optimize) :: plan.paneMessages stage result

/-- The messages of a build that went through some stages and then ended. -/
def messages (plan : Plan) (made : List (Stage × Call)) (outcome : Outcome) : List Event :=
  (made.flatMap fun (stage, call) => plan.stageMessages stage call.result) ++
    if outcome = .completed then [.status readyStatus] else []

/-- Whether the command of each stage that is reached can be made. -/
def Prepares (plan : Plan) (runner : Runner ρ) : ρ → FileTree → List Stage → Prop
  | _, _, [] => True
  | r, files, stage :: rest =>
    ∃ command prepared, plan.prepare files stage = (.ok command, prepared) ∧
      ∀ result left r', runner.run r command plan.scratch prepared = (result, left, r') →
        result.succeeded → plan.Prepares runner r' left rest

variable {plan : Plan} {runner : Runner ρ}

theorem prepares_of_optimize_notMem {stages : List Stage} (h : .optimize ∉ stages) (r : ρ)
    (files : FileTree) : plan.Prepares runner r files stages := by
  induction stages generalizing r files with
  | nil => trivial
  | cons stage rest ih =>
    obtain ⟨hstage, hrest⟩ := List.ne_and_not_mem_of_not_mem_cons h
    obtain ⟨command, hprepare⟩ := exists_prepare plan hstage.symm
    exact ⟨command, files, hprepare files, fun _ left r' _ _ => ih hrest r' left⟩

theorem run_stages {stages : List Stage} {r : ρ} {files : FileTree}
    (hprepares : plan.Prepares runner r files stages) {c : Channel} (hwatched : c.watched)
    (calls : List Call) :
    let out := plan.run runner.recording (calls, r) ⟨.between stages, files, c⟩
    ∃ made outcome, Course stages made outcome ∧
      (∀ entry ∈ made, plan.Asks entry.1 entry.2) ∧
      out.1 = .ok outcome ∧
      out.2.1.channel.waiting = c.waiting ++ plan.messages made outcome ∧
      out.2.2.1 = calls ++ made.map Prod.snd := by
  -- The channel and the record are general, since each stage adds to both before the others run.
  induction stages generalizing r files c calls with
  | nil =>
    rw [run_between_nil]
    exact ⟨[], .completed, .ready, by simp, rfl, Channel.waiting_send hwatched _, by simp⟩
  | cons stage rest ih =>
    obtain ⟨command, prepared, hprepare, hnext⟩ := hprepares
    obtain ⟨result, left, r', hrun⟩ :
        ∃ result left r', runner.run r command plan.scratch prepared = (result, left, r') :=
      ⟨_, _, _, rfl⟩
    let call : Call := ⟨command, plan.scratch, prepared, result, left⟩
    have hasks : plan.Asks stage call := ⟨rfl, commandIn_of_prepare hprepare⟩
    let sent := c.sendAll (plan.stageMessages stage result)
    have hsent : sent.waiting = c.waiting ++ plan.stageMessages stage result :=
      Channel.waiting_sendAll hwatched _
    rw [run_between_cons hprepare (Runner.run_recording hrun calls)]
    by_cases hresult : result.exitCode = 0
    · have hsucceeded : result.succeeded = true := by simpa [ToolResult.succeeded] using hresult
      have hsentWatched : sent.watched := by simpa [sent] using hwatched
      obtain ⟨made, outcome, hcourse, hmade, hout, hwaiting, hcalls⟩ :=
        ih (hnext result left r' hrun hsucceeded) hsentWatched (calls ++ [call])
      rw [if_pos hsucceeded]
      refine ⟨(stage, call) :: made, outcome, .passed hresult hcourse, ?_, hout, ?_, ?_⟩
      · simpa [hasks] using hmade
      · refine hwaiting.trans ?_
        rw [hsent]
        simp [messages, call]
      · refine hcalls.trans ?_
        simp
    · have hfailed : ¬result.succeeded = true := by simpa [ToolResult.succeeded] using hresult
      rw [if_neg hfailed, run_ended]
      refine ⟨[(stage, call)], .failed stage, .stopped hresult, by simpa using hasks, rfl, ?_, rfl⟩
      refine hsent.trans ?_
      simp [messages, call]

/-! ### Whole builds -/

end Plan

/-! ### A small build

A file that stands for all tools, and an empty scratch directory. Every tool succeeds and leaves
the files as they are. -/

def smallPlan : Plan where
  locations :=
    { kotlinc := ⟨"/t"⟩, java := ⟨"/t"⟩, optimizerJar := ⟨"/t"⟩, platformJar := ⟨"/t"⟩
      adb := ⟨"/t"⟩, buildTools := ⟨"/t"⟩, dexdump := ⟨"/t"⟩, runtimeJars := [⟨"/t"⟩]
      scratch := ⟨"/w"⟩ }
  options := ⟨false, 21, "/data", ⟨.none, false⟩⟩

def smallFiles : FileTree := ⟨[(["t"], .file [] true), (["w"], .directory)], []⟩

def smallReady : FileTree := smallFiles.put [sourceFile, "w"] (.file [] false)

def quietRunner : Runner Unit where
  run := fun _ _ _ files => (⟨0, ""⟩, files, ())

/-- Every tool fails and says the same. -/
def failingRunner (output : String) : Runner Unit where
  run := fun _ _ _ files => (⟨1, output⟩, files, ())

/-- The paths of the small build, each with the steps it is read in. -/
def smallPaths : List (String × List String) :=
  [("/t", ["t"]), ("/w", ["w"]), ("/w/", ["w", "."]), ("/w/KotlinExplorer.kt", ["w", sourceFile])]

theorem maxName_smallNames :
    ∀ name ∈ ["t", "w", sourceFile], ¬FileTree.maxName < name.utf8ByteSize := by decide

theorem locate_smallPath (text : String) (steps : List String) (h : (text, steps) ∈ smallPaths)
    (files : FileTree) (follow : Bool) :
    files.locate ⟨text⟩ follow = files.walk follow FileTree.maxLinks [] steps := by
  have hpaths : ∀ entry ∈ smallPaths, (⟨entry.1⟩ : FilePath).isAbsolute = true ∧
      '\x00' ∉ entry.1.toList ∧ entry.1.utf8ByteSize < FileTree.maxPath ∧
      (⟨entry.1⟩ : FilePath).steps = entry.2 := by decide
  obtain ⟨habsolute, hzero, hshort, hsteps⟩ := hpaths _ h
  rw [FileTree.locate_of_isAbsolute _ habsolute hzero hshort, hsteps]

theorem locate_smallTool {files : FileTree} (h : files.find? ["t"] = some (.file [] true)) :
    files.locate ⟨"/t"⟩ = .ok ["t"] := by
  have hname := maxName_smallNames "t" (by simp)
  rw [locate_smallPath "/t" ["t"] (by simp [smallPaths])]
  simp [FileTree.walk, hname, h]

theorem locate_smallScratch {files : FileTree} (h : files.find? ["w"] = some .directory) :
    files.locate ⟨"/w"⟩ = .ok ["w"] := by
  have hname := maxName_smallNames "w" (by simp)
  rw [locate_smallPath "/w" ["w"] (by simp [smallPaths])]
  simp [FileTree.walk, hname, h]

theorem locate_smallSource (follow : Bool) :
    smallFiles.locate ⟨"/w/KotlinExplorer.kt"⟩ follow = .ok [sourceFile, "w"] := by
  have hdir := maxName_smallNames "w" (by simp)
  have hname := maxName_smallNames sourceFile (by simp)
  have hdot : sourceFile ≠ "." ∧ sourceFile ≠ ".." := by decide
  rw [locate_smallPath "/w/KotlinExplorer.kt" ["w", sourceFile] (by simp [smallPaths])]
  simp [FileTree.walk, hdir, hname, hdot, FileTree.find?, smallFiles]

theorem missing_smallPlan {files : FileTree} (htool : files.find? ["t"] = some (.file [] true))
    (hdirectory : files.find? ["w"] = some .directory) :
    smallPlan.locations.missing files = [] := by
  have hreaches : files.reaches ⟨"/t"⟩ = true :=
    FileTree.reaches_of_locate (locate_smallTool htool) htool
  have hscratch : files.reaches ⟨"/w"⟩ = true :=
    FileTree.reaches_of_locate (locate_smallScratch hdirectory) hdirectory
  simp [Locations.missing, Locations.labelled, smallPlan, hreaches, hscratch]

theorem writeSource_smallFiles :
    writeSource smallFiles ⟨"/w"⟩ "" = .ok (⟨"/w/KotlinExplorer.kt"⟩, smallReady) := by
  have hpath : (⟨"/w"⟩ : FilePath) / sourceFile = ⟨"/w/KotlinExplorer.kt"⟩ := by decide
  have hslash : (⟨"/w/KotlinExplorer.kt"⟩ : FilePath).endsInSlash = false := by decide
  have hnone : smallFiles.find? [sourceFile, "w"] = none := by decide
  have hlast : smallFiles.lastTarget ⟨"/w/KotlinExplorer.kt"⟩ FileTree.maxLinks =
      ⟨"/w/KotlinExplorer.kt"⟩ := by
    simp [FileTree.lastTarget, FileTree.maxLinks, hslash, locate_smallSource, hnone]
  have hwriting : smallFiles.locateForWriting ⟨"/w/KotlinExplorer.kt"⟩ =
      .ok ([sourceFile, "w"], none) := by
    simp only [FileTree.locateForWriting, hlast, hslash, locate_smallSource, bind, Except.bind,
      hnone]
    rfl
  have hbytes : Text.Utf8.encode "" = [] := by simp [Text.Utf8.encode]
  simp only [writeSource, hpath, FileTree.writeText, FileTree.write, hwriting, hbytes]
  rfl

theorem classFiles_smallScratch {files : FileTree} (h : files.find? ["w"] = some .directory)
    (hnames : ∀ name ∈ files.namesIn ["w"], hasClassExtension name = false) :
    classFiles files ⟨"/w"⟩ = .ok [] := by
  have hlist : files.list ⟨"/w"⟩ = .ok (files.namesIn ["w"]) := by
    simp only [FileTree.list, locate_smallScratch h, bind, Except.bind, h]
    rfl
  have hnone : (files.namesIn ["w"]).filter
      (fun name => hasClassExtension name && files.isFile ((⟨"/w"⟩ : FilePath) / name)) = [] := by
    rw [List.filter_eq_nil_iff]
    intro name hname
    simp [hnames name hname]
  simp only [classFiles, hlist, onPath_ok, bind, Except.bind, hnone, List.mergeSort_nil]
  rfl

end SnippetLens.Build
