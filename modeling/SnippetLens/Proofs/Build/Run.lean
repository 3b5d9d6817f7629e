import SnippetLens.Build.Plan

/-!
How a run of a build goes on from each phase.

`Plan.run` goes through the phases until one has ended. What follows says for each phase what the
rest of the run is, so that no proof about runs opens the loop again. A stage counts as one step:
its status is sent, its command is made and answered, and what it shows is sent. The messages of
an answer are told here as a table by stage and success.

A runner may do anything, and its state is its own. To tell what a build asks of its runner, the
calls are recorded beside that state, which changes nothing else.
-/

namespace SnippetLens.Build

open Files Listing

variable {ρ : Type}

/-! ### Sending several messages -/

def Channel.sendAll (c : Channel) (events : List Event) : Channel :=
  events.foldl Channel.send c

@[simp] theorem Channel.sendAll_nil (c : Channel) : c.sendAll [] = c := rfl

@[simp] theorem Channel.sendAll_cons (c : Channel) (event : Event) (events : List Event) :
    c.sendAll (event :: events) = (c.send event).sendAll events := rfl

@[simp] theorem Channel.watched_sendAll (c : Channel) (events : List Event) :
    (c.sendAll events).watched = c.watched := by
  induction events generalizing c with
  | nil => rfl
  | cons event events ih => rw [sendAll_cons, ih, watched_send]

theorem Channel.waiting_sendAll {c : Channel} (h : c.watched) (events : List Event) :
    (c.sendAll events).waiting = c.waiting ++ events := by
  induction events generalizing c with
  | nil => simp
  | cons event events ih =>
    have hwatched : (c.send event).watched := by simpa using h
    rw [sendAll_cons, ih hwatched, waiting_send h, List.append_assoc, List.singleton_append]

namespace Plan

/-! ### One stage -/

def paneMessages (plan : Plan) (stage : Stage) (result : ToolResult) : List Event :=
  match stage, result.succeeded with
  | .listBytecode, true =>
    [.pane .bytecode (DumpKind.bytecode.condense plan.options.filters result.output)]
  | .listNativeCode, _ =>
    [.pane .nativeCode (DumpKind.nativeCode.condense plan.options.filters result.output)]
  | .compile, false =>
    [.pane .bytecode (Text.eraseAll (plan.scratch.text ++ "/") result.output)]
  | .optimize, false | .listBytecode, false => [.pane .bytecode result.output]
  | .push, false | .aotCompile, false => [.pane .nativeCode result.output]
  | .compile, true | .optimize, true | .push, true | .aotCompile, true => []

def commandIn (plan : Plan) (files : FileTree) : Stage → Except WorkspaceError Command
  | .compile => .ok (compileCommand plan.locations)
  | .optimize =>
    (classFiles files plan.scratch).map fun classes =>
      if plan.options.optimize then optimizeCommand plan.locations plan.options.minApi classes
      else dexCommand plan.locations plan.options.minApi classes
  | .listBytecode => .ok (listBytecodeCommand plan.locations)
  | .push => .ok (pushCommand plan.locations plan.options.deviceDirectory)
  | .aotCompile => .ok (aotCompileCommand plan.locations plan.options.deviceDirectory)
  | .listNativeCode => .ok (listNativeCodeCommand plan.locations plan.options.deviceDirectory)

theorem commandIn_of_prepare {plan : Plan} {files prepared : FileTree} {stage : Stage}
    {command : Command} (h : plan.prepare files stage = (.ok command, prepared)) :
    plan.commandIn prepared stage = .ok command := by
  cases stage with
  | optimize =>
    simp only [prepare] at h
    simp only [commandIn]
    split at h
    · rename_i hoptimize
      split at h
      · simp at h
      · obtain ⟨hcommand, rfl⟩ := Prod.mk.inj h
        simpa [hoptimize] using hcommand
    · rename_i hoptimize
      obtain ⟨hcommand, rfl⟩ := Prod.mk.inj h
      simpa [hoptimize] using hcommand
  | _ => exact (Prod.mk.inj h).1

/-- Only the optimizer's command takes files, so only making it can fail. -/
theorem exists_prepare (plan : Plan) {stage : Stage} (h : stage ≠ .optimize) :
    ∃ command, ∀ files, plan.prepare files stage = (.ok command, files) := by
  cases stage with
  | optimize => exact absurd rfl h
  | _ => exact ⟨_, fun _ => rfl⟩

theorem answer_waiting (plan : Plan) (stage : Stage) (command : Command) (rest : List Stage)
    (files left : FileTree) (c : Channel) (result : ToolResult) :
    plan.answer ⟨.waiting stage command rest, files, c⟩ result left =
      ⟨if result.succeeded then .between rest else .ended (.ok (.failed stage)), left,
        c.sendAll (plan.paneMessages stage result)⟩ := by
  cases stage <;> cases h : result.succeeded <;>
    simp [answer, h, paneMessages, deliver, Stage.onSuccess, Stage.onFailure, Stage.pane]

/-! ### The rest of a run -/

section Run

variable (plan : Plan) (runner : Runner ρ) (r : ρ) (files : FileTree) (c : Channel)

theorem run_ended (result : Except BuildError Outcome) :
    plan.run runner r ⟨.ended result, files, c⟩ = (result, ⟨.ended result, files, c⟩, r) := by
  rw [run]

theorem run_opening (source : String) :
    plan.run runner r ⟨.opening source, files, c⟩ =
      plan.run runner r (plan.advance ⟨.opening source, files, c⟩) := by
  rw [run]

theorem run_between (rest : List Stage) :
    plan.run runner r ⟨.between rest, files, c⟩ =
      plan.run runner r (plan.advance ⟨.between rest, files, c⟩) := by
  rw [run]

theorem run_waiting (stage : Stage) (command : Command) (rest : List Stage) :
    plan.run runner r ⟨.waiting stage command rest, files, c⟩ =
      let (result, left, r) := runner.run r command plan.scratch files
      plan.run runner r (plan.answer ⟨.waiting stage command rest, files, c⟩ result left) := by
  rw [run]

end Run

variable {plan : Plan}

theorem run_start {source : String} {files ready : FileTree}
    (h : plan.setUp source files = (.ok (), ready)) (runner : Runner ρ) (r : ρ) (c : Channel) :
    plan.run runner r (.start source files c) =
      plan.run runner r ⟨.between Stage.all, ready, c⟩ := by
  rw [Progress.start, run_opening]
  simp only [advance, h]

variable {runner : Runner ρ}

theorem run_between_nil (r : ρ) (files : FileTree) (c : Channel) :
    plan.run runner r ⟨.between [], files, c⟩ =
      (.ok .completed, ⟨.ended (.ok .completed), files, c.send (.status readyStatus)⟩, r) := by
  rw [run_between]
  exact run_ended ..

theorem run_between_cons {r r' : ρ} {files prepared left : FileTree} {stage : Stage}
    {command : Command} {result : ToolResult}
    (hprepare : plan.prepare files stage = (.ok command, prepared))
    (hrun : runner.run r command plan.scratch prepared = (result, left, r'))
    (rest : List Stage) (c : Channel) :
    plan.run runner r ⟨.between (stage :: rest), files, c⟩ =
      plan.run runner r'
        ⟨if result.succeeded then .between rest else .ended (.ok (.failed stage)), left,
          c.sendAll (.status (stage.status plan.options.optimize) ::
            plan.paneMessages stage result)⟩ := by
  rw [run_between]
  simp only [advance, hprepare]
  rw [run_waiting]
  simp only [hrun, answer_waiting]
  rfl

theorem setUp_eq_ok {plan : Plan} {source : String} {files cleaned ready : FileTree} {count : Nat}
    {path : FilePath} (hvalid : plan.locations.missing files = [])
    (hclean : cleanClassFiles files plan.scratch = .ok (count, cleaned))
    (hsource : writeSource cleaned plan.scratch source = .ok (path, ready)) :
    plan.setUp source files = (.ok (), ready) := by
  simp only [setUp, hvalid, hclean, hsource]

/-! ### Builds that end without an error -/

theorem exists_of_setUp_eq_ok {plan : Plan} {source : String} {files ready : FileTree}
    (h : plan.setUp source files = (.ok (), ready)) :
    plan.locations.missing files = [] ∧ ∃ count cleaned path,
      cleanClassFiles files plan.scratch = .ok (count, cleaned) ∧
      writeSource cleaned plan.scratch source = .ok (path, ready) := by
  unfold setUp at h
  split at h
  · rename_i hvalid
    split at h
    · cases h
    · rename_i count cleaned hclean
      split at h
      · cases h
      · rename_i path written hsource
        cases h
        exact ⟨hvalid, count, cleaned, path, hclean, hsource⟩
  · cases h

theorem exists_setUp_of_run {r : ρ} {source : String} {files : FileTree} {c : Channel}
    {outcome : Outcome} (h : (plan.run runner r (.start source files c)).1 = .ok outcome) :
    ∃ ready, plan.setUp source files = (.ok (), ready) := by
  rw [Progress.start, run_opening] at h
  simp only [advance] at h
  split at h
  · simp [run_ended] at h
  · rename_i ready hsetUp
    exact ⟨ready, hsetUp⟩

theorem exists_prepare_of_run {r : ρ} {files : FileTree} {stage : Stage} {rest : List Stage}
    {c : Channel} {outcome : Outcome}
    (h : (plan.run runner r ⟨.between (stage :: rest), files, c⟩).1 = .ok outcome) :
    ∃ command prepared, plan.prepare files stage = (.ok command, prepared) := by
  rw [run_between] at h
  simp only [advance] at h
  split at h
  · simp [run_ended] at h
  · rename_i command prepared hprepare
    exact ⟨command, prepared, hprepare⟩

end Plan

/-! ### The calls of a run -/

/-- A call of a runner: what it was asked, in which files, what it answered, and what it left. -/
structure Call where
  command : Command
  directory : FilePath
  files : FileTree
  result : ToolResult
  left : FileTree

/-- A runner that records its calls, the first one first. -/
def Runner.recording (runner : Runner ρ) : Runner (List Call × ρ) where
  run := fun (calls, r) command directory files =>
    let (result, left, r) := runner.run r command directory files
    (result, left, calls ++ [⟨command, directory, files, result, left⟩], r)

theorem Runner.run_recording {runner : Runner ρ} {r r' : ρ} {command : Command}
    {directory : FilePath} {files left : FileTree} {result : ToolResult}
    (h : runner.run r command directory files = (result, left, r')) (calls : List Call) :
    runner.recording.run (calls, r) command directory files =
      (result, left, calls ++ [⟨command, directory, files, result, left⟩], r') := by
  simp only [recording, h]

theorem Plan.run_recording (plan : Plan) (runner : Runner ρ) (calls : List Call) (r : ρ)
    (b : Progress) :
    ∃ made, plan.run runner.recording (calls, r) b =
      ((plan.run runner r b).1, (plan.run runner r b).2.1, calls ++ made,
        (plan.run runner r b).2.2) := by
  -- Along the recursion of the run: only a phase that waits calls the runner.
  induction r, b using Plan.run.induct plan runner generalizing calls with
  | case1 r b result h =>
    obtain ⟨phase, files, c⟩ := b
    obtain rfl : phase = .ended result := h
    exact ⟨[], by simp [run_ended]⟩
  | case2 r b stage command rest h result left r' hrun ih =>
    obtain ⟨phase, files, c⟩ := b
    obtain rfl : phase = .waiting stage command rest := h
    let call : Call := ⟨command, plan.scratch, files, result, left⟩
    obtain ⟨made, hmade⟩ := ih (calls ++ [call])
    refine ⟨call :: made, ?_⟩
    rw [run_waiting, run_waiting, Runner.run_recording hrun, hrun]
    simpa only [List.append_assoc, List.singleton_append] using hmade
  | case3 r b source h ih =>
    obtain ⟨phase, files, c⟩ := b
    obtain rfl : phase = .opening source := h
    rw [run_opening, run_opening]
    exact ih calls
  | case4 r b rest h ih =>
    obtain ⟨phase, files, c⟩ := b
    obtain rfl : phase = .between rest := h
    rw [run_between, run_between]
    exact ih calls

theorem Plan.prefix_of_run_recording {plan : Plan} {runner : Runner ρ} {calls all : List Call}
    {r : ρ} {b : Progress} (h : (plan.run runner.recording (calls, r) b).2.2.1 = all) :
    calls <+: all := by
  obtain ⟨made, hmade⟩ := plan.run_recording runner calls r b
  rw [← h, hmade]
  exact List.prefix_append calls made

def Plan.calls (plan : Plan) (runner : Runner ρ) (r : ρ) (b : Progress) : List Call :=
  (plan.run runner.recording ([], r) b).2.2.1

end SnippetLens.Build
