import SnippetLens.Proofs.Build.Run

/-!
Builds that end with an error.

A build does its own part in two places only: before the first stage, when it checks its locations
and sets up the scratch directory, and once the compiler succeeded, when it makes the optimizer's
command. So there are three ways for a build to go. It is refused before anything is sent or called
for; it stops behind the compiler with two statuses sent; or it comes to an outcome, which is no
error. Which way it goes does not depend on the channel.
-/

namespace SnippetLens.Build

open Files Toolchain

variable {ρ : Type}

theorem Channel.sendAll_append (c : Channel) (front back : List Event) :
    c.sendAll (front ++ back) = (c.sendAll front).sendAll back :=
  List.foldl_append

namespace Plan

variable {plan : Plan} {runner : Runner ρ}

/-! ### The ways of a build -/

def firstStatuses (plan : Plan) : List Event :=
  [.status (Stage.compile.status plan.options.optimize),
    .status (Stage.optimize.status plan.options.optimize)]

/-- The result of a build, the files that it leaves, what it sends, and the runner after it. -/
inductive Goes (plan : Plan) (runner : Runner ρ) (r : ρ) (source : String) (files : FileTree) :
    Except BuildError Outcome → FileTree → List Event → ρ → Prop where
  /-- The build is refused before its first stage. -/
  | refused {e : BuildError} {left : FileTree}
    (hsetUp : plan.setUp source files = (.error e, left)) :
    plan.Goes runner r source files (.error e) left [] r
  /-- The compiler succeeds, and then the optimizer's command cannot be made. -/
  | stuck {ready compiled left : FileTree} {result : ToolResult} {r' : ρ} {e : WorkspaceError}
    (hsetUp : plan.setUp source files = (.ok (), ready))
    (hrun : runner.run r (compileCommand plan.locations) plan.scratch ready =
      (result, compiled, r'))
    (hsucceeded : result.succeeded = true)
    (hprepare : plan.prepare compiled .optimize = (.error e, left)) :
    plan.Goes runner r source files (.error (.workspace e)) left plan.firstStatuses r'
  /-- The build comes to an outcome. -/
  | ended {ready left : FileTree} {outcome : Outcome} {events : List Event} {r' : ρ}
    (hsetUp : plan.setUp source files = (.ok (), ready)) :
    plan.Goes runner r source files (.ok outcome) left events r'

def Concludes (plan : Plan) (runner : Runner ρ) (r : ρ) (files : FileTree) (stages : List Stage) :
    Prop :=
  ∃ outcome left events r', ∀ c, plan.run runner r ⟨.between stages, files, c⟩ =
    (.ok outcome, ⟨.ended (.ok outcome), left, c.sendAll events⟩, r')

theorem concludes_cons {r : ρ} {files prepared : FileTree} {stage : Stage} {command : Command}
    {rest : List Stage} (hprepare : plan.prepare files stage = (.ok command, prepared))
    (hrest : ∀ r files, plan.Concludes runner r files rest) :
    plan.Concludes runner r files (stage :: rest) := by
  rcases hrun : runner.run r command plan.scratch prepared with ⟨result, left, r'⟩
  have hstep := run_between_cons hprepare hrun rest
  let sent := .status (stage.status plan.options.optimize) :: plan.paneMessages stage result
  by_cases hsucceeded : result.succeeded = true
  · obtain ⟨outcome, last, events, r'', hlast⟩ := hrest r' left
    refine ⟨outcome, last, sent ++ events, r'', fun c => ?_⟩
    rw [hstep c, if_pos hsucceeded, hlast, Channel.sendAll_append]
  · refine ⟨.failed stage, left, sent, r', fun c => ?_⟩
    rw [hstep c, if_neg hsucceeded, run_ended]

theorem concludes_of_optimize_notMem {stages : List Stage} (h : .optimize ∉ stages) (r : ρ)
    (files : FileTree) : plan.Concludes runner r files stages := by
  induction stages generalizing r files with
  | nil => exact ⟨.completed, files, [.status readyStatus], r, fun c => run_between_nil r files c⟩
  | cons stage rest ih =>
    obtain ⟨hstage, hrest⟩ := List.ne_and_not_mem_of_not_mem_cons h
    obtain ⟨command, hprepare⟩ := exists_prepare plan hstage.symm
    exact concludes_cons (hprepare files) fun r files => ih hrest r files

theorem run_between_cons_error {r : ρ} {files left : FileTree} {stage : Stage}
    {e : WorkspaceError} (h : plan.prepare files stage = (.error e, left)) (rest : List Stage)
    (c : Channel) :
    plan.run runner r ⟨.between (stage :: rest), files, c⟩ =
      (.error (.workspace e), ⟨.ended (.error (.workspace e)), left,
        c.send (.status (stage.status plan.options.optimize))⟩, r) := by
  rw [run_between]
  simp only [advance, h, run_ended]

theorem run_compiled {r r' : ρ} {source : String} {files ready compiled : FileTree}
    {result : ToolResult} (hsetUp : plan.setUp source files = (.ok (), ready))
    (hrun : runner.run r (compileCommand plan.locations) plan.scratch ready =
      (result, compiled, r'))
    (hsucceeded : result.succeeded = true) (c : Channel) :
    plan.run runner r (.start source files c) =
      plan.run runner r' ⟨.between Stage.all.tail, compiled,
        c.send (.status (Stage.compile.status plan.options.optimize))⟩ := by
  have hprepare : plan.prepare ready .compile = (.ok (compileCommand plan.locations), ready) := rfl
  have hcompile := run_between_cons hprepare hrun Stage.all.tail c
  have hnothing : plan.paneMessages .compile result = [] := by
    simp only [paneMessages, hsucceeded]
  rw [if_pos hsucceeded, hnothing] at hcompile
  exact (run_start hsetUp runner r c).trans hcompile

theorem run_notCompiled {r r' : ρ} {source : String} {files ready left : FileTree}
    {result : ToolResult} (hsetUp : plan.setUp source files = (.ok (), ready))
    (hrun : runner.run r (compileCommand plan.locations) plan.scratch ready = (result, left, r'))
    (hfailed : ¬result.succeeded = true) (c : Channel) :
    plan.run runner r (.start source files c) =
      (.ok (.failed .compile), ⟨.ended (.ok (.failed .compile)), left,
        c.sendAll (.status (Stage.compile.status plan.options.optimize) ::
          plan.paneMessages .compile result)⟩, r') := by
  have hprepare : plan.prepare ready .compile = (.ok (compileCommand plan.locations), ready) := rfl
  have hcompile := run_between_cons hprepare hrun Stage.all.tail c
  rw [if_neg hfailed, run_ended] at hcompile
  exact (run_start hsetUp runner r c).trans hcompile

theorem exists_goes (plan : Plan) (runner : Runner ρ) (r : ρ) (source : String)
    (files : FileTree) : ∃ result left events r',
      plan.Goes runner r source files result left events r' ∧ ∀ c,
        plan.run runner r (.start source files c) =
          (result, ⟨.ended result, left, c.sendAll events⟩, r') := by
  rcases hsetUp : plan.setUp source files with ⟨e | _, ready⟩
  · refine ⟨.error e, ready, [], r, .refused hsetUp, fun c => ?_⟩
    rw [Progress.start, run_opening]
    simp only [advance, hsetUp, run_ended, Channel.sendAll_nil]
  · rcases hrun : runner.run r (compileCommand plan.locations) plan.scratch ready
      with ⟨result, compiled, r'⟩
    by_cases hsucceeded : result.succeeded = true
    · have hcompiled := run_compiled hsetUp hrun hsucceeded
      rcases hprepare : plan.prepare compiled .optimize with ⟨e | command, prepared⟩
      · refine ⟨.error (.workspace e), prepared, plan.firstStatuses, r',
          .stuck hsetUp hrun hsucceeded hprepare, fun c => ?_⟩
        exact (hcompiled c).trans (run_between_cons_error hprepare _ _)
      · have hrest : ∀ r files, plan.Concludes runner r files Stage.all.tail.tail :=
          concludes_of_optimize_notMem (by decide)
        obtain ⟨outcome, left, events, r'', hlast⟩ := concludes_cons hprepare hrest
        exact ⟨.ok outcome, left, _ :: events, r'', .ended hsetUp,
          fun c => (hcompiled c).trans (hlast _)⟩
    · exact ⟨.ok (.failed .compile), compiled, _, r', .ended hsetUp,
        run_notCompiled hsetUp hrun hsucceeded⟩

/-! ### What an error tells -/

theorem setUp_eq_error {source : String} {files left : FileTree} {e : BuildError}
    (h : plan.setUp source files = (.error e, left)) :
    (e = .missingTools (plan.locations.missing files) ∧ plan.locations.missing files ≠ [] ∧
        left = files) ∨
      (∃ cause, e = .workspace cause) ∧ plan.locations.missing files = [] := by
  unfold setUp at h
  split at h
  · rename_i hvalid
    split at h
    · cases h
      exact .inr ⟨⟨_, rfl⟩, hvalid⟩
    · split at h
      · cases h
        exact .inr ⟨⟨_, rfl⟩, hvalid⟩
      · cases h
  · rename_i missing hmissing
    cases h
    exact .inl ⟨rfl, hmissing, rfl⟩

theorem run_of_missing {files : FileTree} (h : plan.locations.missing files ≠ []) (r : ρ)
    (source : String) (c : Channel) :
    plan.run runner r (.start source files c) =
      (.error (.missingTools (plan.locations.missing files)),
        ⟨.ended (.error (.missingTools (plan.locations.missing files))), files, c⟩, r) := by
  have hsetUp : plan.setUp source files =
      (.error (.missingTools (plan.locations.missing files)), files) := by
    unfold setUp
    split
    · rename_i hvalid
      exact absurd hvalid h
    · rfl
  rw [Progress.start, run_opening]
  simp only [advance, hsetUp, run_ended]

theorem ready_notMem_firstStatuses (plan : Plan) : .status readyStatus ∉ plan.firstStatuses := by
  cases h : plan.options.optimize <;> simp [firstStatuses, h, Stage.status, readyStatus]

theorem missing_ne_nil_iff {l : Locations} {files : FileTree} :
    l.missing files ≠ [] ↔ ∃ entry ∈ l.labelled, files.reaches entry.2 = false := by
  simp [Locations.missing]

/-- A build that ends with an error has shown nothing and called at most for the compiler. -/
theorem run_error (plan : Plan) (runner : Runner ρ) (r : ρ) (source : String) (files : FileTree) :
    ∃ (result : Except BuildError Outcome) (left : FileTree) (events : List Event)
      (made : List Call),
      (∀ c, let start := Progress.start source files c
        (plan.run runner r start).1 = result ∧ (plan.run runner r start).2.1.files = left ∧
          (plan.run runner r start).2.1.channel = c.sendAll events ∧
          plan.calls runner r start = made) ∧
      (∀ e, result = .error e →
        (∀ pane text, .pane pane text ∉ events) ∧ .status readyStatus ∉ events ∧
          made.length ≤ 1) ∧
      ((∃ missing, result = .error (.missingTools missing)) ↔
        ∃ entry ∈ plan.locations.labelled, files.reaches entry.2 = false) ∧
      (∀ missing, result = .error (.missingTools missing) →
        missing = plan.locations.labelled.filter (fun entry => !files.reaches entry.2) ∧
          events = [] ∧ made = [] ∧ left = files) ∧
      (∀ e, result = .error (.workspace e) →
        events = [] ∧ made = [] ∨
          events = [.status (Stage.compile.status plan.options.optimize),
            .status (Stage.optimize.status plan.options.optimize)] ∧
          ∃ call, made = [call] ∧ call.command = compileCommand plan.locations ∧
            call.directory = plan.scratch ∧ call.result.exitCode = 0) := by
  obtain ⟨result, left, events, ⟨made, r'⟩, hgoes, hrun⟩ :=
    exists_goes plan runner.recording ([], r) source files
  refine ⟨result, left, events, made, fun c => ?_, ?_⟩
  · -- A runner that records what it is asked goes the same way.
    obtain ⟨recorded, hrecording⟩ := plan.run_recording runner [] r (.start source files c)
    have hboth := hrecording.symm.trans (hrun c)
    simp only [Prod.mk.injEq] at hboth
    obtain ⟨hresult, hprogress, -⟩ := hboth
    dsimp only
    rw [hresult, hprogress, Plan.calls, hrun c]
    exact ⟨rfl, rfl, rfl, rfl⟩
  · rw [← missing_ne_nil_iff]
    cases hgoes with
    | refused hsetUp =>
      refine ⟨fun _ _ => by simp, ?_⟩
      rcases setUp_eq_error hsetUp with ⟨rfl, hmissing, rfl⟩ | ⟨⟨cause, rfl⟩, hvalid⟩
      · refine ⟨iff_of_true ⟨_, rfl⟩ hmissing, fun missing h => ?_, fun e h => ?_⟩
        · cases h
          exact ⟨rfl, rfl, rfl, rfl⟩
        · cases h
      · refine ⟨iff_of_false ?_ fun hne => hne hvalid, ?_, fun e _ => .inl ⟨rfl, rfl⟩⟩
        · rintro ⟨missing, h⟩
          cases h
        · rintro missing h
          cases h
    | @stuck ready compiled left tool r'' e hsetUp hcall hsucceeded hprepare =>
      obtain ⟨hvalid, -⟩ := exists_of_setUp_eq_ok hsetUp
      rcases hplain : runner.run r (compileCommand plan.locations) plan.scratch ready
        with ⟨answer, after, last⟩
      rw [Runner.run_recording hplain] at hcall
      cases hcall
      have hcode : tool.exitCode = 0 := by simpa [ToolResult.succeeded] using hsucceeded
      refine ⟨fun _ _ => ⟨?_, ready_notMem_firstStatuses plan, by simp⟩,
        iff_of_false ?_ fun hne => hne hvalid, ?_,
        fun e _ => .inr ⟨rfl, _, rfl, rfl, rfl, hcode⟩⟩
      · simp [firstStatuses]
      · rintro ⟨missing, h⟩
        cases h
      · rintro missing h
        cases h
    | ended hsetUp =>
      obtain ⟨hvalid, -⟩ := exists_of_setUp_eq_ok hsetUp
      simp [hvalid]

end Plan

end SnippetLens.Build
