import SnippetLens.Proofs.Build.Script
import SnippetLens.Proofs.Build.Trace

/-!
Builds do not see what earlier builds left.

A build looks into its scratch directory once: to make the optimizer's command, it lists the class
files that the compiler left. Before that it took all class files away that such a listing would
show, so two builds that start from different scratch directories find the same class files there,
namely those of their own compilers. No other stage reads the directory.

Two runs are related step by step: `Alike` says that they end, tell and ask the same. They go on
alike as soon as each stage makes the same command, whatever the files are.
-/

namespace SnippetLens.Build

open Files

/-- Whether two recorded runs have the same result, have told the same and made the same calls. -/
structure Alike (out out' : Except BuildError Outcome × Progress × List Call × Nat) : Prop where
  result : out.1 = out'.1
  channel : out.2.1.channel = out'.2.1.channel
  commands : out.2.2.1.map (·.command) = out'.2.2.1.map (·.command)

namespace Plan

def dexing (plan : Plan) (classes : List String) : Command :=
  if plan.options.optimize then optimizeCommand plan.locations plan.options.minApi classes
  else dexCommand plan.locations plan.options.minApi classes

def dexingOptions (plan : Plan) : List String :=
  if plan.options.optimize then
    ["-classpath", plan.locations.optimizerJar.text, "com.android.tools.r8.R8", "--release",
      "--min-api", toString plan.options.minApi, "--pg-conf", "rules.txt", "--output", ".",
      "--lib", plan.locations.platformJar.text]
  else
    ["-classpath", plan.locations.optimizerJar.text, "com.android.tools.r8.D8",
      "--min-api", toString plan.options.minApi, "--output", "."]

theorem arguments_dexing (plan : Plan) (classes : List String) :
    (plan.dexing classes).arguments =
      plan.dexingOptions ++ classes ++ plan.locations.runtimeJars.map (·.text) := by
  by_cases hoptimize : plan.options.optimize
  · rw [dexing, dexingOptions, if_pos hoptimize, if_pos hoptimize]
    simp [optimizeCommand, jarCommand, Command.withArguments, optimizerClass, rulesFile]
  · rw [dexing, dexingOptions, if_neg hoptimize, if_neg hoptimize]
    simp [dexCommand, jarCommand, Command.withArguments, dexerClass]

/-- Whether the scratch directory, where there is one, holds files and directories alone. -/
def HasPlainScratch (plan : Plan) (files : FileTree) : Prop :=
  ∀ place, files.locate plan.scratch = .ok place → PlainDirectory files place

variable {plan : Plan} {script : Nat → Turn}

/-! ### The class files of one build -/

/-- What the build itself writes is a file, with the path put to a failure. -/
theorem write_of_onPath {files written : FileTree} {path told : FilePath} {bytes : List UInt8}
    (h : (do return (path, ← onPath path (files.write path bytes))) = .ok (told, written)) :
    files.write path bytes = .ok written := by
  cases hwrite : files.write path bytes with
  | error cause => simp [hwrite, onPath, Except.mapError, bind, Except.bind] at h
  | ok left =>
    obtain ⟨-, rfl⟩ : path = told ∧ left = written := by
      simpa [hwrite, bind, Except.bind, pure, Except.pure] using h
    rfl

/-- A build that has set everything up has no class file left from before. -/
theorem scratch_of_setUp {source : String} {files ready : FileTree}
    (hplain : plan.HasPlainScratch files) (hsetUp : plan.setUp source files = (.ok (), ready)) :
    ∃ place, ready.IsDirectoryAt plan.scratch place ∧ PlainDirectory ready place ∧
      HoldsNoClass ready plan.scratch place := by
  obtain ⟨-, count, cleaned, path, hclean, hsource⟩ := exists_of_setUp_eq_ok hsetUp
  obtain ⟨classes, hclasses, -⟩ := exists_of_cleanClassFiles hclean
  obtain ⟨place, hplace, -⟩ := classFiles_eq_ok hclasses
  have hscratch := hplain place (FileTree.isDirectoryAt_iff.1 hplace).1
  obtain ⟨hcleaned, hkept, hnone⟩ := hscratch.cleanClassFiles hplace hclean
  obtain ⟨hready, hreadyPlain, hmem⟩ :=
    hkept.write hcleaned (by decide) (write_of_onPath hsource)
  refine ⟨place, hready, hreadyPlain, fun name hclass hfits hname => ?_⟩
  rcases (hmem name).1 hname with rfl | hname
  · exact absurd hclass (by decide)
  · exact hnone name hclass hfits hname

/-- Making a command writes the rules if it is the optimizer's, and nothing otherwise. -/
theorem written_of_prepare {files prepared : FileTree} {stage : Stage} {command : Command}
    (h : plan.prepare files stage = (.ok command, prepared)) :
    (stage = .optimize ∧ plan.options.optimize = true) ∧
        files.write (plan.scratch / rulesFile) (Text.Utf8.encode optimizerRules) = .ok prepared ∨
      ¬(stage = .optimize ∧ plan.options.optimize = true) ∧ prepared = files := by
  cases stage with
  | optimize =>
    simp only [prepare] at h
    split at h
    · rename_i hoptimize
      split at h
      · cases h
      · rename_i path written hrules
        obtain ⟨-, rfl⟩ := Prod.mk.inj h
        exact .inl ⟨⟨rfl, hoptimize⟩, write_of_onPath hrules⟩
    · rename_i hoptimize
      obtain ⟨-, rfl⟩ := Prod.mk.inj h
      exact .inr ⟨fun hrules => hoptimize hrules.2, rfl⟩
  | _ =>
    obtain ⟨-, rfl⟩ := Prod.mk.inj h
    exact .inr ⟨fun hrules => Stage.noConfusion hrules.1, rfl⟩

/-- Making the optimizer's command lists the class files that are there. -/
theorem classFiles_of_prepare {left prepared : FileTree} {command : Command}
    (hprepare : plan.prepare left .optimize = (.ok command, prepared)) :
    ∃ classes place, command = plan.dexing classes ∧ left.IsDirectoryAt plan.scratch place ∧
      (PlainDirectory left place → classFiles left plan.scratch = .ok classes) := by
  have hcommand := commandIn_of_prepare hprepare
  cases hclasses : classFiles prepared plan.scratch with
  | error e => simp [commandIn, hclasses, Except.map] at hcommand
  | ok classes =>
    obtain rfl : plan.dexing classes = command := by
      simpa [commandIn, hclasses, Except.map, dexing] using hcommand
    obtain ⟨place, hplace, -⟩ := classFiles_eq_ok hclasses
    refine ⟨classes, place, rfl, ?_⟩
    rcases written_of_prepare hprepare with ⟨-, hwrite⟩ | ⟨-, rfl⟩
    · have hleft := hplace.of_narrows (FileTree.narrows_write hwrite)
      refine ⟨hleft, fun hplain => ?_⟩
      -- The rules are no class file, so the same class files were there before they were written.
      obtain ⟨-, hwritten, hnames⟩ := hplain.write hleft (by decide) hwrite
      obtain ⟨hascending, hmem⟩ := (hwritten.classFiles_eq_ok_iff hplace).1 hclasses
      refine (hplain.classFiles_eq_ok_iff hleft).2 ⟨hascending, fun name => ?_⟩
      rw [hmem, hnames]
      constructor
      · rintro ⟨hname, hclass, hfits⟩
        refine ⟨hname.resolve_left ?_, hclass, hfits⟩
        rintro rfl
        exact absurd hclass (by decide)
      · rintro ⟨hname, hclass, hfits⟩
        exact ⟨.inr hname, hclass, hfits⟩
    · exact ⟨hplace, fun _ => hclasses⟩

/-- The class files that the optimizer's command takes are those that the compiler's turn left. -/
theorem exists_classes_of_prepare {ready prepared : FileTree} {place : Place} {chores : List Chore}
    {command : Command} (hready : ready.IsDirectoryAt plan.scratch place)
    (hplain : PlainDirectory ready place) (hclean : HoldsNoClass ready plan.scratch place)
    (hprepare : plan.prepare (performAll plan.scratch ready chores) .optimize =
      (.ok command, prepared)) :
    ∃ classes, command = plan.dexing classes ∧
      classFiles (performAll plan.scratch ready chores) plan.scratch = .ok classes ∧
      Ascending classes ∧ ∀ name, name ∈ classes ↔
        hasClassExtension name = true ∧ FileTree.Fits plan.scratch name ∧
          leaves chores name = true := by
  obtain ⟨classes, found, hcommand, hleft, hclasses⟩ := classFiles_of_prepare hprepare
  obtain rfl := hready.unique (hleft.of_narrows (narrows_performAll _ _ chores))
  obtain ⟨hleftPlain, hleaves⟩ := performAll_of_clean hplain hclean hleft
  obtain ⟨hascending, hmem⟩ := (hleftPlain.classFiles_eq_ok_iff hleft).1 (hclasses hleftPlain)
  refine ⟨classes, hcommand, hclasses hleftPlain, hascending, fun name => (hmem name).trans ?_⟩
  rw [and_left_comm]
  refine and_congr_right fun hclass => ?_
  rw [and_comm]
  exact and_congr_right fun hfits => hleaves name hclass hfits

/-! ### Two runs -/

/-- Two runs stay alike over a stage that makes the same command in both. -/
theorem alike_between_cons {i : Nat} {files files' prepared prepared' : FileTree} {stage : Stage}
    {command : Command} {calls calls' : List Call} {rest : List Stage} {c : Channel}
    (hprepare : plan.prepare files stage = (.ok command, prepared))
    (hprepare' : plan.prepare files' stage = (.ok command, prepared'))
    (hcalls : calls.map (·.command) = calls'.map (·.command))
    (hrest : (script i).result.succeeded = true → ∀ calls calls' c,
      calls.map (·.command) = calls'.map (·.command) →
        Alike
          (plan.run (scripted script).recording (calls, i + 1)
            ⟨.between rest, performAll plan.scratch prepared (script i).chores, c⟩)
          (plan.run (scripted script).recording (calls', i + 1)
            ⟨.between rest, performAll plan.scratch prepared' (script i).chores, c⟩)) :
    Alike
      (plan.run (scripted script).recording (calls, i) ⟨.between (stage :: rest), files, c⟩)
      (plan.run (scripted script).recording (calls', i) ⟨.between (stage :: rest), files', c⟩) := by
  rw [run_between_cons hprepare (Runner.run_recording (run_scripted ..) calls),
    run_between_cons hprepare' (Runner.run_recording (run_scripted ..) calls')]
  have hmore : ∀ call call' : Call, call.command = call'.command →
      (calls ++ [call]).map (·.command) = (calls' ++ [call']).map (·.command) := by
    intro call call' hcall
    simp [hcalls, hcall]
  by_cases hresult : (script i).result.succeeded = true
  · simp only [hresult, if_true]
    exact hrest hresult _ _ _ (hmore _ _ rfl)
  · simp only [hresult, Bool.false_eq_true, if_false, run_ended]
    exact ⟨rfl, rfl, hmore _ _ rfl⟩

/-- Only the optimizer's command takes files, so the stages without it go on alike. -/
theorem alike_of_optimize_notMem {stages : List Stage} (h : .optimize ∉ stages) {i : Nat}
    {files files' : FileTree} {calls calls' : List Call} {c : Channel}
    (hcalls : calls.map (·.command) = calls'.map (·.command)) :
    Alike
      (plan.run (scripted script).recording (calls, i) ⟨.between stages, files, c⟩)
      (plan.run (scripted script).recording (calls', i) ⟨.between stages, files', c⟩) := by
  induction stages generalizing i files files' calls calls' c with
  | nil =>
    rw [run_between_nil, run_between_nil]
    exact ⟨rfl, rfl, hcalls⟩
  | cons stage rest ih =>
    obtain ⟨hstage, hrest⟩ := List.ne_and_not_mem_of_not_mem_cons h
    obtain ⟨command, hprepare⟩ := exists_prepare plan hstage.symm
    exact alike_between_cons (hprepare files) (hprepare files') hcalls
      fun _ _ _ _ hmore => ih hrest hmore

/-! ### Whole builds -/

theorem prepare_compile (plan : Plan) (files : FileTree) :
    plan.prepare files .compile = (.ok (compileCommand plan.locations), files) := rfl

section Builds

variable {source : String} {files files' ready : FileTree} {c : Channel}

/-- If a scripted build ends without an error and its compiler succeeds, the optimizer's command is
made of the class files that the script tells. -/
theorem exists_classes_of_run (hplain : plan.HasPlainScratch files)
    (hsetUp : plan.setUp source files = (.ok (), ready)) {outcome : Outcome}
    (hok : (plan.run (scripted script) 0 (.start source files c)).1 = .ok outcome)
    (hcompiled : (script 0).result.succeeded = true) :
    ∃ classes prepared,
      plan.prepare (performAll plan.scratch ready (script 0).chores) .optimize =
        (.ok (plan.dexing classes), prepared) ∧
      classFiles (performAll plan.scratch ready (script 0).chores) plan.scratch = .ok classes ∧
      Ascending classes ∧ ∀ name, name ∈ classes ↔
        hasClassExtension name = true ∧ FileTree.Fits plan.scratch name ∧
          leaves (script 0).chores name = true := by
  obtain ⟨place, hplace, hready, hclean⟩ := scratch_of_setUp hplain hsetUp
  rw [run_start hsetUp, Stage.all, run_between_cons (prepare_compile plan ready) (run_scripted ..),
    if_pos hcompiled] at hok
  obtain ⟨command, prepared, hprepare⟩ := exists_prepare_of_run hok
  obtain ⟨classes, rfl, hclasses⟩ := exists_classes_of_prepare hplace hready hclean hprepare
  exact ⟨classes, prepared, hprepare, hclasses⟩

/-- A build that makes a second call has had its compiler's success. -/
theorem compiled_of_calls (hsetUp : plan.setUp source files = (.ok (), ready))
    {first second : Call} {more : List Call}
    (hcalls : plan.calls (scripted script) 0 (.start source files c) = first :: second :: more) :
    (script 0).result.succeeded = true := by
  by_contra hfailed
  rw [calls, run_start hsetUp, Stage.all,
    run_between_cons (prepare_compile plan ready) (Runner.run_recording (run_scripted ..) []),
    if_neg hfailed, run_ended] at hcalls
  simp at hcalls

theorem calls_of_compiled (hsetUp : plan.setUp source files = (.ok (), ready))
    (hcompiled : (script 0).result.succeeded = true) {command : Command} {prepared : FileTree}
    (hprepare : plan.prepare (performAll plan.scratch ready (script 0).chores) .optimize =
      (.ok command, prepared))
    {first second : Call} {more : List Call}
    (hcalls : plan.calls (scripted script) 0 (.start source files c) = first :: second :: more) :
    first.left = performAll plan.scratch ready (script 0).chores ∧ second.command = command := by
  rw [calls, run_start hsetUp, Stage.all,
    run_between_cons (prepare_compile plan ready) (Runner.run_recording (run_scripted ..) []),
    if_pos hcompiled,
    run_between_cons hprepare (Runner.run_recording (run_scripted ..) _)] at hcalls
  obtain ⟨made, hmade⟩ := prefix_of_run_recording hcalls
  obtain ⟨hfirst, hrest⟩ := List.cons.inj hmade
  obtain ⟨hsecond, -⟩ := List.cons.inj hrest
  exact ⟨hfirst ▸ rfl, hsecond ▸ rfl⟩

/-- Two scripted builds of one source that start with different files in the scratch directory end
alike, and the optimizer's command of each takes the class files that its own compiler left. -/
theorem run_scripted_eq (hplain : plan.HasPlainScratch files)
    (hplain' : plan.HasPlainScratch files') {outcome outcome' : Outcome}
    (hok : (plan.run (scripted script) 0 (.start source files c)).1 = .ok outcome)
    (hok' : (plan.run (scripted script) 0 (.start source files' c)).1 = .ok outcome') :
    outcome = outcome' ∧
      (plan.run (scripted script) 0 (.start source files c)).2.1.channel =
        (plan.run (scripted script) 0 (.start source files' c)).2.1.channel ∧
      (plan.calls (scripted script) 0 (.start source files c)).map (·.command) =
        (plan.calls (scripted script) 0 (.start source files' c)).map (·.command) ∧
      ∀ compiling dexing later,
        plan.calls (scripted script) 0 (.start source files c) = compiling :: dexing :: later →
          ∃ classes,
            dexing.command.arguments =
              plan.dexingOptions ++ classes ++ plan.locations.runtimeJars.map (·.text) ∧
            classFiles compiling.left plan.scratch = .ok classes ∧ Ascending classes ∧
            ∀ name, name ∈ classes ↔ hasClassExtension name = true ∧
              FileTree.Fits plan.scratch name ∧ leaves (script 0).chores name = true := by
  obtain ⟨ready, hsetUp⟩ := exists_setUp_of_run hok
  obtain ⟨ready', hsetUp'⟩ := exists_setUp_of_run hok'
  have hclasses := exists_classes_of_run hplain hsetUp hok
  have hclasses' := exists_classes_of_run hplain' hsetUp' hok'
  have halike : Alike
      (plan.run (scripted script).recording ([], 0) (.start source files c))
      (plan.run (scripted script).recording ([], 0) (.start source files' c)) := by
    rw [run_start hsetUp, run_start hsetUp', Stage.all]
    refine alike_between_cons (prepare_compile plan ready) (prepare_compile plan ready') rfl
      fun hcompiled calls calls' c hcalls => ?_
    obtain ⟨classes, prepared, hprepare, -, hascending, hmem⟩ := hclasses hcompiled
    obtain ⟨classes', prepared', hprepare', -, hascending', hmem'⟩ := hclasses' hcompiled
    obtain rfl := hascending.eq_of_mem_iff hascending' fun name =>
      (hmem name).trans (hmem' name).symm
    exact alike_between_cons hprepare hprepare' hcalls fun _ _ _ _ hmore =>
      alike_of_optimize_notMem (by decide) hmore
  obtain ⟨made, hmade⟩ := plan.run_recording (scripted script) [] 0 (.start source files c)
  obtain ⟨made', hmade'⟩ := plan.run_recording (scripted script) [] 0 (.start source files' c)
  obtain ⟨hresult, hchannel, hcommands⟩ := halike
  simp only [hmade, hmade'] at hresult hchannel
  refine ⟨?_, hchannel, hcommands, fun compiling dexing later hcalls => ?_⟩
  · rw [hok, hok'] at hresult
    exact Except.ok.inj hresult
  · have hcompiled := compiled_of_calls hsetUp hcalls
    obtain ⟨classes, prepared, hprepare, hlisted, hascending, hmem⟩ := hclasses hcompiled
    obtain ⟨hleft, hcommand⟩ := calls_of_compiled hsetUp hcompiled hprepare hcalls
    have harguments := plan.arguments_dexing classes
    rw [← hcommand] at harguments
    exact ⟨classes, harguments, hleft ▸ hlisted, hascending, hmem⟩

end Builds

end Plan

/-! ### A small build over an old class file

The small build again, once with an empty scratch directory and once with a class file in it that
is not its own. The compiler writes another class file, and the dexer fails. -/

def staleFiles : FileTree :=
  { smallFiles with nodes := smallFiles.nodes ++ [(["Old.class", "w"], .file [] false)] }

def smallScript : Nat → Turn
  | 0 => ⟨⟨0, ""⟩, [⟨"Main.class", by decide +kernel, .write []⟩]⟩
  | _ => ⟨⟨1, "out of memory"⟩, []⟩

theorem smallPlan_hasPlainScratch {files : FileTree}
    (hdirectory : files.find? ["w"] = some .directory) (hplain : PlainDirectory files ["w"]) :
    smallPlan.HasPlainScratch files := by
  intro place hplace
  obtain rfl : ["w"] = place := Except.ok.inj ((locate_smallScratch hdirectory).symm.trans hplace)
  exact hplain

theorem plainDirectory_smallFiles : PlainDirectory smallFiles ["w"] where
  names := by decide
  nodup := by decide
  entries name node hnode := by simp [FileTree.find?, smallFiles] at hnode

theorem plainDirectory_staleFiles : PlainDirectory staleFiles ["w"] where
  names := by decide
  nodup := by decide
  entries name node hnode := by
    by_cases hname : "Old.class" = name
    · obtain rfl : Node.file [] false = node := by
        simpa [FileTree.find?, staleFiles, smallFiles, hname] using hnode
      exact .inl rfl
    · simp [FileTree.find?, staleFiles, smallFiles, hname] at hnode

theorem isDirectoryAt_smallScratch {files : FileTree}
    (h : files.find? ["w"] = some .directory) : files.IsDirectoryAt smallPlan.scratch ["w"] :=
  FileTree.isDirectoryAt_iff.2 ⟨locate_smallScratch h, h⟩

theorem setUp_smallFiles : smallPlan.setUp "" smallFiles = (.ok (), smallReady) := by
  have hclasses : classFiles smallFiles ⟨"/w"⟩ = .ok [] :=
    classFiles_smallScratch (by decide) (by decide)
  have hclean : cleanClassFiles smallFiles smallPlan.scratch = .ok (0, smallFiles) := by
    simp only [cleanClassFiles, smallPlan, Plan.scratch, hclasses, bind, Except.bind]
    rfl
  exact Plan.setUp_eq_ok (missing_smallPlan (by decide) (by decide)) hclean writeSource_smallFiles

theorem setUp_staleFiles : smallPlan.setUp "" staleFiles = (.ok (), smallReady) := by
  have hplace : staleFiles.IsDirectoryAt smallPlan.scratch ["w"] :=
    isDirectoryAt_smallScratch (by decide)
  have hfits : FileTree.Fits smallPlan.scratch "Old.class" := by decide
  have hold : hasClassExtension "Old.class" = true := by decide
  have hnode : staleFiles.find? ["Old.class", "w"] = some (.file [] false) := by decide
  have hclasses : classFiles staleFiles smallPlan.scratch = .ok ["Old.class"] := by
    refine (plainDirectory_staleFiles.classFiles_eq_ok_iff hplace).2
      ⟨List.pairwise_singleton _ _, fun name => ?_⟩
    have hnames : staleFiles.namesIn ["w"] = ["Old.class"] := by decide
    rw [hnames, List.mem_singleton]
    refine ⟨?_, And.left⟩
    rintro rfl
    exact ⟨rfl, hold, hfits⟩
  have hremove : staleFiles.remove (smallPlan.scratch / "Old.class") = .ok smallFiles := by
    rw [FileTree.remove_entry hplace (by decide)
      (plainDirectory_staleFiles.not_link _), if_pos hfits, hnode]
    decide
  have hclean : cleanClassFiles staleFiles smallPlan.scratch = .ok (1, smallFiles) := by
    simp only [cleanClassFiles, hclasses, removeEach, List.foldlM_cons, List.foldlM_nil, hremove,
      onPath_ok, bind, Except.bind]
    rfl
  exact Plan.setUp_eq_ok (missing_smallPlan (by decide) (by decide)) hclean writeSource_smallFiles

/-- The files of the small build once the compiler has written its class file. -/
def smallCompiled : FileTree := smallReady.put ["Main.class", "w"] (.file [] false)

theorem performAll_smallScript :
    performAll smallPlan.scratch smallReady (smallScript 0).chores = smallCompiled := by
  have hready : smallReady.IsDirectoryAt smallPlan.scratch ["w"] :=
    isDirectoryAt_smallScratch (by decide)
  have hnone : smallReady.find? ["Main.class", "w"] = none := by decide
  have hwrite : smallReady.write (smallPlan.scratch / "Main.class") [] = .ok smallCompiled := by
    rw [FileTree.write_entry hready (by decide) (by simp [hnone]),
      if_pos (by decide), hnone]
    rfl
  exact Chore.perform_of_ok hwrite

/-- A build in the small scratch directory ends at the dexer, which it can call. -/
theorem run_smallScript_of_prepare {plan : Plan} {files prepared : FileTree} {command : Command}
    (hscratch : plan.scratch = smallPlan.scratch)
    (hsetUp : plan.setUp "" files = (.ok (), smallReady))
    (hprepare : plan.prepare smallCompiled .optimize = (.ok command, prepared)) :
    (plan.run (scripted smallScript) 0 (.start "" files {})).1 = .ok (.failed .optimize) := by
  rw [Plan.run_start hsetUp, Stage.all,
    Plan.run_between_cons (Plan.prepare_compile plan smallReady) (run_scripted ..),
    if_pos (by decide), hscratch, performAll_smallScript,
    Plan.run_between_cons hprepare (run_scripted ..),
    if_neg (by decide), Plan.run_ended]

theorem prepare_smallCompiled {classes : List String}
    (hclasses : classFiles smallCompiled smallPlan.scratch = .ok classes) :
    smallPlan.prepare smallCompiled .optimize =
      (.ok (dexCommand smallPlan.locations smallPlan.options.minApi classes), smallCompiled) := by
  simp only [Plan.prepare, hclasses]
  rfl

theorem run_smallScript {files : FileTree}
    (hsetUp : smallPlan.setUp "" files = (.ok (), smallReady)) :
    (smallPlan.run (scripted smallScript) 0 (.start "" files {})).1 =
      .ok (.failed .optimize) := by
  have hcompiled : smallCompiled.IsDirectoryAt smallPlan.scratch ["w"] :=
    isDirectoryAt_smallScratch (by decide)
  obtain ⟨classes, hclasses⟩ := exists_classFiles hcompiled
  exact run_smallScript_of_prepare rfl hsetUp (prepare_smallCompiled hclasses)

/-- The one class file that the compiler of the small build leaves. -/
theorem leaves_smallScript (name : String) :
    leaves (smallScript 0).chores name = true ↔ name = "Main.class" := by
  by_cases hname : name = "Main.class"
  · subst hname
    exact iff_of_true (by decide) rfl
  · refine iff_of_false ?_ hname
    simp [leaves, smallScript, Ne.symm hname]

theorem exists_calls_smallScript {files : FileTree}
    (hsetUp : smallPlan.setUp "" files = (.ok (), smallReady)) :
    ∃ compiling dexing,
      smallPlan.calls (scripted smallScript) 0 (.start "" files {}) = [compiling, dexing] := by
  have hcompiled : smallCompiled.IsDirectoryAt smallPlan.scratch ["w"] :=
    isDirectoryAt_smallScratch (by decide)
  obtain ⟨classes, hclasses⟩ := exists_classFiles hcompiled
  have hprepare := prepare_smallCompiled hclasses
  let compiling : Call :=
    ⟨compileCommand smallPlan.locations, smallPlan.scratch, smallReady, (smallScript 0).result,
      smallCompiled⟩
  let dexing : Call :=
    ⟨dexCommand smallPlan.locations smallPlan.options.minApi classes, smallPlan.scratch,
      smallCompiled, (smallScript 1).result, smallCompiled⟩
  refine ⟨compiling, dexing, ?_⟩
  rw [Plan.calls, Plan.run_start hsetUp, Stage.all,
    Plan.run_between_cons (Plan.prepare_compile smallPlan smallReady)
      (Runner.run_recording (run_scripted ..) []),
    if_pos (by decide), performAll_smallScript,
    Plan.run_between_cons hprepare (Runner.run_recording (run_scripted ..) _),
    if_neg (by decide), Plan.run_ended]
  rfl

/-- The second build does not hand the old class file to its dexer. -/
theorem run_scripted_eq_staleFiles :
    smallPlan.HasPlainScratch smallFiles ∧ smallPlan.HasPlainScratch staleFiles ∧
      (smallPlan.run (scripted smallScript) 0 (.start "" smallFiles {})).1 =
        .ok (.failed .optimize) ∧
      (smallPlan.run (scripted smallScript) 0 (.start "" staleFiles {})).1 =
        .ok (.failed .optimize) ∧
      (smallPlan.calls (scripted smallScript) 0 (.start "" staleFiles {})).map (·.command) =
        (smallPlan.calls (scripted smallScript) 0 (.start "" smallFiles {})).map (·.command) ∧
      ∃ compiling dexing,
        smallPlan.calls (scripted smallScript) 0 (.start "" staleFiles {}) = [compiling, dexing] ∧
          dexing.command.arguments =
            ["-classpath", "/t", "com.android.tools.r8.D8", "--min-api", "21", "--output", ".",
              "Main.class", "/t"] := by
  have hplain := smallPlan_hasPlainScratch (by decide) plainDirectory_smallFiles
  have hplain' := smallPlan_hasPlainScratch (by decide) plainDirectory_staleFiles
  have hok := run_smallScript setUp_smallFiles
  have hok' := run_smallScript setUp_staleFiles
  obtain ⟨-, -, hcommands, harguments⟩ := Plan.run_scripted_eq hplain' hplain hok' hok
  obtain ⟨compiling, dexing, hcalls⟩ := exists_calls_smallScript setUp_staleFiles
  obtain ⟨classes, hdexing, -, hascending, hmem⟩ := harguments compiling dexing [] hcalls
  have hmain : hasClassExtension "Main.class" = true ∧
      FileTree.Fits smallPlan.scratch "Main.class" := by decide
  obtain rfl : classes = ["Main.class"] := by
    refine hascending.eq_of_mem_iff (List.pairwise_singleton ..) fun name => ?_
    rw [hmem, leaves_smallScript, List.mem_singleton]
    refine ⟨fun h => h.2.2, ?_⟩
    rintro rfl
    exact ⟨hmain.1, hmain.2, rfl⟩
  exact ⟨hplain, hplain', hok, hok', hcommands, compiling, dexing, hcalls, hdexing⟩

end SnippetLens.Build
