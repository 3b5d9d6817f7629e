import SnippetLens.Build.Channel
import SnippetLens.Build.Error
import SnippetLens.Config.Settings
import SnippetLens.Listing.Dump

/-!
A build, step by step.

A build first checks its locations, cleans the scratch directory and writes the source. Then it
goes through the stages: it announces a stage, makes the stage's command, waits for the tool, and
hands what the stage reports to the stage's pane. It ends at the first tool that fails, at the
first thing it cannot do itself, or, ready, after the last stage.

Between two steps the build is a value, and while a tool runs it waits for the tool's answer. So
what happens in between, another request or a watcher that goes away, can be told step by step;
`Plan.run` is the run in which a runner answers and nothing else happens.
-/

namespace SnippetLens.Build

open Files Toolchain Listing

structure BuildOptions where
  optimize : Bool
  minApi : Nat
  deviceDirectory : String
  filters : FilterOptions
  deriving DecidableEq, Repr

def BuildOptions.ofSettings (s : Config.Settings) : BuildOptions where
  optimize := s.build.optimize
  minApi := s.build.minApi
  deviceDirectory := s.build.deviceDirectory
  filters := s.filterOptions

structure Plan where
  locations : Locations
  options : BuildOptions
  deriving DecidableEq, Repr

/-- What a stage hands to its pane. -/
inductive Delivery where
  | nothing
  /-- What the tool said. -/
  | raw
  /-- What the tool said, without the path of the scratch directory. -/
  | relative
  /-- The condensed listing of what the tool said. -/
  | condensed (kind : DumpKind)
  deriving DecidableEq, Repr

namespace Stage

def onSuccess : Stage → Delivery
  | listBytecode => .condensed .bytecode
  | listNativeCode => .condensed .nativeCode
  | compile | optimize | push | aotCompile => .nothing

/-- What a stage hands over when its tool failed. A native listing is shown also then. -/
def onFailure : Stage → Delivery
  | compile => .relative
  | optimize | listBytecode | push | aotCompile => .raw
  | listNativeCode => .condensed .nativeCode

end Stage

/-- Where a build stands between two steps. -/
inductive Phase where
  /-- Nothing was done yet. -/
  | opening (source : String)
  /-- The stages that are still to run. -/
  | between (rest : List Stage)
  /-- The tool of a stage is running. -/
  | waiting (stage : Stage) (command : Command) (rest : List Stage)
  | ended (result : Except BuildError Outcome)

def Phase.weight : Phase → Nat
  | .opening _ => 2 * Stage.all.length + 2
  | .between rest => 2 * rest.length + 1
  | .waiting _ _ rest => 2 * rest.length + 2
  | .ended _ => 0

/-- How far a build has come: where it stands, the file tree, and the channel that it reports to. -/
structure Progress where
  phase : Phase
  files : FileTree
  channel : Channel

def Progress.start (source : String) (files : FileTree) (channel : Channel) : Progress :=
  ⟨.opening source, files, channel⟩

namespace Plan

def scratch (plan : Plan) : FilePath := plan.locations.scratch

/-- The command of a stage, and the file tree after making it: the optimizer's rules are written
and the class files are listed only when they are needed. -/
def prepare (plan : Plan) (files : FileTree) :
    Stage → Except WorkspaceError Command × FileTree
  | .compile => (.ok (compileCommand plan.locations), files)
  | .optimize =>
    if plan.options.optimize then
      match writeRules files plan.scratch with
      | .error e => (.error e, files)
      | .ok (_, files) =>
        ((classFiles files plan.scratch).map
          (optimizeCommand plan.locations plan.options.minApi), files)
    else
      ((classFiles files plan.scratch).map
        (dexCommand plan.locations plan.options.minApi), files)
  | .listBytecode => (.ok (listBytecodeCommand plan.locations), files)
  | .push => (.ok (pushCommand plan.locations plan.options.deviceDirectory), files)
  | .aotCompile => (.ok (aotCompileCommand plan.locations plan.options.deviceDirectory), files)
  | .listNativeCode =>
    (.ok (listNativeCodeCommand plan.locations plan.options.deviceDirectory), files)

def deliver (plan : Plan) (output : String) : Delivery → Option String
  | .nothing => none
  | .raw => some output
  | .relative => some (Text.eraseAll (plan.scratch.text ++ "/") output)
  | .condensed kind => some (kind.condense plan.options.filters output)

/-- Checks the locations, cleans the scratch directory and writes the source. -/
def setUp (plan : Plan) (source : String) (files : FileTree) :
    Except BuildError Unit × FileTree :=
  match plan.locations.missing files with
  | [] =>
    match cleanClassFiles files plan.scratch with
    | .error e => (.error (.workspace e), files)
    | .ok (_, files) =>
      match writeSource files plan.scratch source with
      | .error e => (.error (.workspace e), files)
      | .ok (_, files) => (.ok (), files)
  | missing => (.error (.missingTools missing), files)

/-- The next step of a build that does not wait for a tool. -/
def advance (plan : Plan) (b : Progress) : Progress :=
  match b.phase with
  | .opening source =>
    match plan.setUp source b.files with
    | (.error e, files) => { b with phase := .ended (.error e), files }
    | (.ok (), files) => { b with phase := .between Stage.all, files }
  | .between [] =>
    { b with phase := .ended (.ok .completed), channel := b.channel.send (.status readyStatus) }
  | .between (stage :: rest) =>
    let channel := b.channel.send (.status (stage.status plan.options.optimize))
    match plan.prepare b.files stage with
    | (.error e, files) => ⟨.ended (.error (.workspace e)), files, channel⟩
    | (.ok command, files) => ⟨.waiting stage command rest, files, channel⟩
  | .waiting .. | .ended _ => b

def answer (plan : Plan) (b : Progress) (result : ToolResult) (files : FileTree) : Progress :=
  match b.phase with
  | .waiting stage _ rest =>
    let delivery := if result.succeeded then stage.onSuccess else stage.onFailure
    let channel := match plan.deliver result.output delivery with
      | some text => b.channel.send (.pane stage.pane text)
      | none => b.channel
    let phase := if result.succeeded then .between rest else .ended (.ok (.failed stage))
    ⟨phase, files, channel⟩
  | _ => b

theorem weight_advance_lt (plan : Plan) {b : Progress} (h : b.phase.weight ≠ 0)
    (hw : ∀ stage command rest, b.phase ≠ .waiting stage command rest) :
    (plan.advance b).phase.weight < b.phase.weight := by
  unfold advance
  split
  · rename_i phase
    split <;> simp [phase, Phase.weight]
  · rename_i phase
    simp [phase, Phase.weight]
  · rename_i phase
    split <;> simp [phase, Phase.weight]
    omega
  · rename_i phase
    exact absurd phase (hw _ _ _)
  · rename_i phase
    simp [phase, Phase.weight] at h

theorem weight_answer_lt (plan : Plan) {b : Progress} {stage : Stage} {command : Command}
    {rest : List Stage} (h : b.phase = .waiting stage command rest) (result : ToolResult)
    (files : FileTree) : (plan.answer b result files).phase.weight < b.phase.weight := by
  simp only [answer, h]
  split <;> simp [Phase.weight]

end Plan

/-- What runs tools: a step from a state of its own, a command, the directory to run it in and the
file tree, to a result, the file tree after it, and the next state. -/
structure Runner (ρ : Type) where
  run : ρ → Command → FilePath → FileTree → ToolResult × FileTree × ρ

def Plan.run {ρ : Type} (plan : Plan) (runner : Runner ρ) (r : ρ) (b : Progress) :
    Except BuildError Outcome × Progress × ρ :=
  match _h : b.phase with
  | .ended result => (result, b, r)
  | .waiting _ command _ =>
    let (result, files, r) := runner.run r command plan.scratch b.files
    plan.run runner r (plan.answer b result files)
  | .opening _ => plan.run runner r (plan.advance b)
  | .between _ => plan.run runner r (plan.advance b)
termination_by b.phase.weight
decreasing_by
  · exact plan.weight_answer_lt _h _ _
  · exact plan.weight_advance_lt (by simp [_h, Phase.weight]) (by simp [_h])
  · exact plan.weight_advance_lt (by simp [_h, Phase.weight]) (by simp [_h])

end SnippetLens.Build
