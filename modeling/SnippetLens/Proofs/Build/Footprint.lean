import SnippetLens.Proofs.Build.Isolation
import SnippetLens.Proofs.Files.Footprint

/-!
What a build itself does to the files.

Besides its tools a build touches the file tree twice. Before the first stage it takes the class
files out of the scratch directory and writes the source; and before the optimizer is called it
writes the rules, if it optimizes. Everything else is what the tools leave, at whichever stage the
build ends.

The trees are compared place by place, through the whole tree. So a class file in a directory below,
a directory with the extension of class files or old rules of a build that does not optimize are
among the places that stay.
-/

namespace SnippetLens.Build

open Files

variable {ρ : Type}

/-- Whether a directory that stands at a place holds a class file of the name. A link counts as what
it leads to. -/
def IsClassFile (files : FileTree) (dir : FilePath) (place : Place) (name : String) : Prop :=
  name ∈ files.namesIn place ∧ hasClassExtension name = true ∧ files.isFile (dir / name) = true

namespace Plan

/-- Whether neither the source nor the rules are a link in the scratch directory. -/
def WritesNoLink (plan : Plan) (files : FileTree) : Prop :=
  ∀ place target, files.IsDirectoryAt plan.scratch place →
    files.find? (sourceFile :: place) ≠ some (.link target) ∧
      files.find? (rulesFile :: place) ≠ some (.link target)

/-- What a build does before its first stage, in the scratch directory that stands at a place. -/
structure SetsUp (plan : Plan) (source : String) (place : Place) (before after : FileTree) :
    Prop where
  here : after.here = before.here
  source : after.find? (sourceFile :: place) =
    some (FileTree.afterWriting (Text.Utf8.encode source) (before.find? (sourceFile :: place)))
  cleaned : ∀ name, IsClassFile before plan.scratch place name →
    after.find? (name :: place) = none
  others : ∀ other, other ≠ sourceFile :: place →
    (∀ name, IsClassFile before plan.scratch place name → other ≠ name :: place) →
      after.find? other = before.find? other

def Touches (plan : Plan) (stage : Stage) (before after : FileTree) : Prop :=
  if stage = .optimize ∧ plan.options.optimize = true then
    ∃ place, before.IsDirectoryAt plan.scratch place ∧
      before.Writes after (rulesFile :: place) (Text.Utf8.encode optimizerRules)
  else after = before

/-- What becomes of the files along some calls: before each of them the build does what it does for
that stage, and it goes on with what the tool left. -/
inductive HandsOn (plan : Plan) : FileTree → List (Stage × Call) → FileTree → Prop where
  | over {files : FileTree} : plan.HandsOn files [] files
  | call {before after : FileTree} {stage : Stage} {call : Call} {made : List (Stage × Call)}
    (htouches : plan.Touches stage before call.files)
    (hrest : plan.HandsOn call.left made after) : plan.HandsOn before ((stage, call) :: made) after

variable {plan : Plan}

theorem WritesNoLink.of_narrows {files left : FileTree} (h : plan.WritesNoLink files)
    (hn : files.Narrows left) : plan.WritesNoLink left := by
  intro place target hplace
  obtain ⟨hsource, hrules⟩ := h place target (hplace.of_narrows hn)
  exact ⟨fun hlink => hsource (hn.turns _ _ hlink rfl), fun hlink => hrules (hn.turns _ _ hlink rfl)⟩

/-! ### Setting up -/

/-- Removing files takes away these entries of the directory and no others. -/
theorem find?_removeEach {files start cleaned : FileTree} {dir : FilePath} {place : Place}
    {names : List String} (h : start.IsDirectoryAt dir place) (hn : start.Narrows files)
    (hdirectory : files.find? place = some .directory) (hnames : ∀ name ∈ names, IsEntryName name)
    (hremove : removeEach files dir names = .ok cleaned) :
    files.Narrows cleaned ∧ (∀ name ∈ names, cleaned.find? (name :: place) = none) ∧
      ∀ other, (∀ name ∈ names, other ≠ name :: place) →
        cleaned.find? other = files.find? other := by
  -- The directory is found again before each step, from the tree in which it was listed.
  induction names generalizing files with
  | nil =>
    cases hremove
    exact ⟨.refl _, by simp, fun _ _ => rfl⟩
  | cons name names ih =>
    obtain ⟨hname, hnames⟩ := List.forall_mem_cons.1 hnames
    obtain ⟨removed, hone, hrest⟩ := exists_of_removeEach_cons hremove
    obtain ⟨goal, hgoal⟩ := FileTree.exists_locate_of_remove hone
    have hhere := h.of_locate hn hname hdirectory hgoal
    obtain rfl := FileTree.eq_erase_of_remove hhere hname hone
    have hstay : place ≠ name :: place := fun hsame => by
      simpa using congrArg List.length hsame
    have hkept := (files.find?_erase_of_ne hstay).trans hdirectory
    obtain ⟨hnarrows, hnone, hothers⟩ :=
      ih (hn.trans (files.narrows_erase _)) hkept hnames hrest
    refine ⟨(files.narrows_erase _).trans hnarrows, ?_, ?_⟩
    · intro other hother
      by_cases hlater : other ∈ names
      · exact hnone other hlater
      · have hapart : ∀ later ∈ names, other :: place ≠ later :: place := by
          intro later hmem hsame
          rw [(List.cons.inj hsame).1] at hlater
          exact hlater hmem
        rw [hothers _ hapart, (List.mem_cons.1 hother).resolve_right hlater]
        exact files.find?_erase_self (List.cons_ne_nil _ _)
    · intro other hother
      obtain ⟨hne, hlater⟩ := List.forall_mem_cons.1 hother
      rw [hothers other hlater, files.find?_erase_of_ne hne]

theorem isEntryName_files : IsEntryName sourceFile ∧ IsEntryName rulesFile := by decide

theorem setsUp_of_setUp {source : String} {files ready : FileTree} (hnames : files.WellNamed)
    (hlinks : plan.WritesNoLink files) (hsetUp : plan.setUp source files = (.ok (), ready)) :
    files.Narrows ready ∧ ∃ place, files.IsDirectoryAt plan.scratch place ∧
      plan.SetsUp source place files ready := by
  obtain ⟨-, count, cleaned, path, hclean, hsource⟩ := exists_of_setUp_eq_ok hsetUp
  obtain ⟨classes, hclasses, hremove⟩ := exists_of_cleanClassFiles hclean
  obtain ⟨place, hplace, hmem, -⟩ := classFiles_eq_ok hclasses
  obtain ⟨hnarrows, hnone, hothers⟩ := find?_removeEach hplace (.refl files) hplace.directory
    (fun name hname => hnames.isEntryName ((hmem name).1 hname).1) hremove
  -- Neither the directory nor the source is a class file of the directory.
  have hdirectory : cleaned.find? place = some .directory := by
    rw [hothers place fun name _ hsame => by simpa using congrArg List.length hsame]
    exact hplace.directory
  have hapart : ∀ name, IsClassFile files plan.scratch place name →
      sourceFile :: place ≠ name :: place := by
    intro name hname hsame
    have hclass := hname.2.1
    rw [← (List.cons.inj hsame).1] at hclass
    exact absurd hclass (by decide)
  have hkept : cleaned.find? (sourceFile :: place) = files.find? (sourceFile :: place) :=
    hothers _ fun name hname => hapart name ((hmem name).1 hname)
  have hwrite := write_of_onPath hsource
  obtain ⟨goal, hgoal⟩ := FileTree.exists_locate_of_write hwrite
  have hfound := hplace.of_locate hnarrows isEntryName_files.1 hdirectory hgoal
  obtain ⟨hhere, hwritten, hstay⟩ := FileTree.writes_of_write hfound isEntryName_files.1
    (fun target => hkept ▸ (hlinks place target hplace).1) hwrite
  refine ⟨hnarrows.trans (FileTree.narrows_write hwrite), place, hplace, ?_, ?_, ?_, ?_⟩
  · rw [hhere, hnarrows.here]
  · rw [hwritten, hkept]
  · intro name hname
    rw [hstay _ (hapart name hname).symm]
    exact hnone name ((hmem name).2 hname)
  · intro other hother hclass
    rw [hstay other hother]
    exact hothers other fun name hname => hclass name ((hmem name).1 hname)

/-! ### Stages -/

theorem touches_of_prepare {files prepared : FileTree} {stage : Stage} {command : Command}
    (hlinks : plan.WritesNoLink files)
    (hprepare : plan.prepare files stage = (.ok command, prepared)) :
    plan.Touches stage files prepared := by
  rw [Touches]
  rcases written_of_prepare hprepare with ⟨hrules, hwrite⟩ | ⟨hnone, hsame⟩
  · rw [if_pos hrules]
    obtain ⟨rfl, -⟩ := hrules
    obtain ⟨-, place, -, hplace, -⟩ := classFiles_of_prepare hprepare
    exact ⟨place, hplace, FileTree.writes_of_write hplace isEntryName_files.2
      (fun target => (hlinks place target hplace).2) hwrite⟩
  · rw [if_neg hnone]
    exact hsame

/-- The stages that are left hand the files on, from the build to the tools and back. -/
theorem handsOn_between {runner : Runner ρ} {stages : List Stage} {r : ρ} {files : FileTree}
    {c : Channel} {calls : List Call} {outcome : Outcome} (hlinks : plan.WritesNoLink files)
    (hleft : ∀ call ∈ (plan.run runner.recording (calls, r) ⟨.between stages, files, c⟩).2.2.1,
      plan.WritesNoLink call.left)
    (hok : (plan.run runner.recording (calls, r) ⟨.between stages, files, c⟩).1 = .ok outcome) :
    let out := plan.run runner.recording (calls, r) ⟨.between stages, files, c⟩
    ∃ made, Course stages made outcome ∧ out.2.2.1 = calls ++ made.map Prod.snd ∧
      plan.HandsOn files made out.2.1.files := by
  induction stages generalizing r files c calls with
  | nil =>
    rw [run_between_nil] at hok ⊢
    cases hok
    exact ⟨[], .ready, by simp, .over⟩
  | cons stage rest ih =>
    obtain ⟨command, prepared, hprepare⟩ := exists_prepare_of_run hok
    have htouches := touches_of_prepare hlinks hprepare
    obtain ⟨result, left, r', hrun⟩ :
        ∃ result left r', runner.run r command plan.scratch prepared = (result, left, r') :=
      ⟨_, _, _, rfl⟩
    let call : Call := ⟨command, plan.scratch, prepared, result, left⟩
    rw [run_between_cons hprepare (Runner.run_recording hrun calls)] at hleft hok ⊢
    by_cases hresult : result.exitCode = 0
    · have hsucceeded : result.succeeded = true := by simpa [ToolResult.succeeded] using hresult
      rw [if_pos hsucceeded] at hleft hok ⊢
      have hcall : call ∈ calls ++ [call] := by simp
      have hnext := hleft call ((prefix_of_run_recording rfl).subset hcall)
      obtain ⟨made, hcourse, hcalls, hhands⟩ := ih hnext hleft hok
      refine ⟨(stage, call) :: made, .passed hresult hcourse, ?_, .call htouches hhands⟩
      rw [hcalls]
      simp [call]
    · have hfailed : ¬result.succeeded = true := by simpa [ToolResult.succeeded] using hresult
      rw [if_neg hfailed, run_ended] at hok ⊢
      cases hok
      exact ⟨[(stage, call)], .stopped hresult, rfl, .call htouches .over⟩

/-! ### Whole builds -/

theorem run_footprint {runner : Runner ρ} {r : ρ} {source : String} {files : FileTree} {c : Channel}
    {outcome : Outcome} (hnames : files.WellNamed) (hlinks : plan.WritesNoLink files)
    (hleft : ∀ call ∈ plan.calls runner r (.start source files c), plan.WritesNoLink call.left)
    (hok : (plan.run runner r (.start source files c)).1 = .ok outcome) :
    ∃ place ready made, files.IsDirectoryAt plan.scratch place ∧
      plan.SetsUp source place files ready ∧
      Course Stage.all made outcome ∧
      plan.calls runner r (.start source files c) = made.map Prod.snd ∧
      plan.HandsOn ready made (plan.run runner r (.start source files c)).2.1.files := by
  obtain ⟨ready, hsetUp⟩ := exists_setUp_of_run hok
  obtain ⟨hnarrows, place, hplace, hready⟩ := setsUp_of_setUp hnames hlinks hsetUp
  obtain ⟨recorded, hrecording⟩ := plan.run_recording runner [] r (.start source files c)
  have hstart := run_start hsetUp runner.recording ([], r) c
  rw [calls, hstart] at hleft
  have hresult : (plan.run runner.recording ([], r) ⟨.between Stage.all, ready, c⟩).1 =
      .ok outcome := by rw [← hstart, hrecording, hok]
  obtain ⟨made, hcourse, hcalls, hhands⟩ :=
    handsOn_between (hlinks.of_narrows hnarrows) hleft hresult
  refine ⟨place, ready, made, hplace, hready, hcourse, ?_, ?_⟩
  · rw [calls, hstart, hcalls, List.nil_append]
  · rwa [← hstart, hrecording] at hhands

/-! ### Tools that make no directory or link -/

theorem narrows_of_prepare {files prepared : FileTree} {stage : Stage} {command : Command}
    (hprepare : plan.prepare files stage = (.ok command, prepared)) : files.Narrows prepared := by
  rcases written_of_prepare hprepare with ⟨-, hwrite⟩ | ⟨-, rfl⟩
  · exact FileTree.narrows_write hwrite
  · exact .refl _

section Narrowing

variable {runner : Runner ρ} {outcome : Outcome}

theorem narrows_left_between
    (htools : ∀ r command dir (t : FileTree), t.Narrows (runner.run r command dir t).2.1)
    {stages : List Stage} {r : ρ} {files : FileTree} {c : Channel} {calls : List Call}
    (hok : (plan.run runner.recording (calls, r) ⟨.between stages, files, c⟩).1 = .ok outcome) :
    ∀ call ∈ (plan.run runner.recording (calls, r) ⟨.between stages, files, c⟩).2.2.1,
      call ∈ calls ∨ files.Narrows call.left := by
  induction stages generalizing r files c calls with
  | nil =>
    rw [run_between_nil]
    intro call hcall
    exact .inl hcall
  | cons stage rest ih =>
    obtain ⟨command, prepared, hprepare⟩ := exists_prepare_of_run hok
    obtain ⟨result, left, r', hrun⟩ :
        ∃ result left r', runner.run r command plan.scratch prepared = (result, left, r') :=
      ⟨_, _, _, rfl⟩
    have htool : prepared.Narrows left := by
      have h := htools r command plan.scratch prepared
      rwa [hrun] at h
    have hleft := (narrows_of_prepare hprepare).trans htool
    have hmade : ∀ call ∈ calls ++ [⟨command, plan.scratch, prepared, result, left⟩],
        call ∈ calls ∨ files.Narrows call.left := by
      intro call hcall
      rcases List.mem_append.1 hcall with hbefore | hcall
      · exact .inl hbefore
      · obtain rfl := List.mem_singleton.1 hcall
        exact .inr hleft
    rw [run_between_cons hprepare (Runner.run_recording hrun calls)] at hok ⊢
    split at hok
    · rename_i hsucceeded
      rw [if_pos hsucceeded]
      intro call hcall
      rcases ih hok call hcall with hbefore | hlater
      · exact hmade call hbefore
      · exact .inr (hleft.trans hlater)
    · rename_i hfailed
      rw [if_neg hfailed, run_ended]
      exact hmade

theorem writesNoLink_left
    (htools : ∀ r command dir (t : FileTree), t.Narrows (runner.run r command dir t).2.1)
    {r : ρ} {source : String} {files : FileTree} {c : Channel} (hnames : files.WellNamed)
    (hlinks : plan.WritesNoLink files)
    (hok : (plan.run runner r (.start source files c)).1 = .ok outcome) :
    ∀ call ∈ plan.calls runner r (.start source files c), plan.WritesNoLink call.left := by
  obtain ⟨ready, hsetUp⟩ := exists_setUp_of_run hok
  obtain ⟨hready, -⟩ := setsUp_of_setUp hnames hlinks hsetUp
  obtain ⟨recorded, hrecording⟩ := plan.run_recording runner [] r (.start source files c)
  rw [calls]
  rw [← congrArg Prod.fst hrecording] at hok
  rw [run_start hsetUp] at hok ⊢
  intro call hcall
  rcases narrows_left_between htools hok call hcall with hnone | hleft
  · cases hnone
  · exact hlinks.of_narrows (hready.trans hleft)

end Narrowing

end Plan

/-! ### An optimizing build over an old class file

The compiler writes a class file, and the optimizer fails behind the rules. -/

def optimizingPlan : Plan := { smallPlan with options := ⟨true, 21, "/data", ⟨.none, false⟩⟩ }

def smallRuled : FileTree :=
  smallCompiled.put [rulesFile, "w"] (.file (Text.Utf8.encode optimizerRules) false)

theorem writeRules_smallCompiled : writeRules smallCompiled smallPlan.scratch =
    .ok (smallPlan.scratch / rulesFile, smallRuled) := by
  have hcompiled : smallCompiled.IsDirectoryAt smallPlan.scratch ["w"] :=
    isDirectoryAt_smallScratch (by decide)
  have hnone : smallCompiled.find? [rulesFile, "w"] = none := by decide
  have hwrite : smallCompiled.write (smallPlan.scratch / rulesFile)
      (Text.Utf8.encode optimizerRules) = .ok smallRuled := by
    rw [FileTree.write_entry hcompiled Plan.isEntryName_files.2 (by simp [hnone]),
      if_pos (by decide), hnone]
    rfl
  simp only [writeRules, FileTree.writeText, hwrite, onPath_ok, bind, Except.bind]
  rfl

theorem exists_prepare_optimizingPlan : ∃ command,
    optimizingPlan.prepare smallCompiled .optimize = (.ok command, smallRuled) := by
  have hdirectory : smallRuled.find? ["w"] = some .directory :=
    (smallCompiled.find?_put_of_ne (by decide) _).trans (by decide)
  obtain ⟨classes, hclasses⟩ := exists_classFiles (isDirectoryAt_smallScratch hdirectory)
  have hscratch : optimizingPlan.scratch = smallPlan.scratch := rfl
  have hoptimize : optimizingPlan.options.optimize = true := rfl
  simp only [Plan.prepare, hoptimize, if_true, hscratch, writeRules_smallCompiled, hclasses]
  exact ⟨_, rfl⟩

theorem run_footprint_optimizingPlan :
    let start := Progress.start "" staleFiles {}
    staleFiles.WellNamed ∧ optimizingPlan.WritesNoLink staleFiles ∧
      (∀ call ∈ optimizingPlan.calls (scripted smallScript) 0 start,
        optimizingPlan.WritesNoLink call.left) ∧
      (optimizingPlan.run (scripted smallScript) 0 start).1 = .ok (.failed .optimize) ∧
      ∃ place ready made, staleFiles.IsDirectoryAt optimizingPlan.scratch place ∧
        optimizingPlan.SetsUp "" place staleFiles ready ∧
        Course Stage.all made (.failed .optimize) ∧
        optimizingPlan.calls (scripted smallScript) 0 start = made.map Prod.snd ∧
        optimizingPlan.HandsOn ready made
          (optimizingPlan.run (scripted smallScript) 0 start).2.1.files := by
  intro start
  have hnames : staleFiles.WellNamed := by
    unfold FileTree.WellNamed
    decide +kernel
  have hlinks : optimizingPlan.WritesNoLink staleFiles := by
    intro place target hplace
    obtain rfl : ["w"] = place := (isDirectoryAt_smallScratch (by decide)).unique hplace
    have hnone : staleFiles.find? [sourceFile, "w"] = none ∧
        staleFiles.find? [rulesFile, "w"] = none := by decide +kernel
    simp [hnone]
  obtain ⟨command, hprepare⟩ := exists_prepare_optimizingPlan
  have hok : (optimizingPlan.run (scripted smallScript) 0 start).1 = .ok (.failed .optimize) :=
    run_smallScript_of_prepare rfl setUp_staleFiles hprepare
  have hleft := Plan.writesNoLink_left (fun _ _ dir t => narrows_performAll dir t _)
    hnames hlinks hok
  exact ⟨hnames, hlinks, hleft, hok, Plan.run_footprint hnames hlinks hleft hok⟩

end SnippetLens.Build
