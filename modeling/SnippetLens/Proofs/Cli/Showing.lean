import SnippetLens.Proofs.Build.Isolation
import SnippetLens.Proofs.Cli.Commands
import SnippetLens.Proofs.Cli.Turns
import SnippetLens.Proofs.Files.Write

/-!
What becomes of the messages of a build.

The collector prints the statuses as they come and keeps the last text of each pane. Once the build
has returned and nothing is waiting any more, the panes are written, the bytecode first, and the
outcome is told. Since no build sends two texts to one pane, the last text of each pane is all that
was sent to it; and of two files at different places the second can be written after the first.

So all turns of the two tasks lead to the same, and this is what the command does, which lets the
build run first and collects then.
-/

namespace SnippetLens.Cli

open Files Build

variable {ρ : Type}

/-- What is left to do when both tasks have ended: the panes are written, and then the outcome is
told. -/
def conclude (request : BuildRequest) (outcome : Except BuildError Outcome) (panes : Panes)
    (d : Desk) : Except CommandError Unit × Desk :=
  match writePane panes .bytecode request.bytecodeOut d with
  | (.error e, d) => (.error e, d)
  | (.ok (), d) =>
    match writePane panes .nativeCode request.nativeOut d with
    | (.error e, d) => (.error e, d)
    | (.ok (), d) => (outcomeError outcome, d)

theorem showBuild_eq (quiet : Bool) (request : BuildRequest)
    (outcome : Except BuildError Outcome) (events : List Event) (d : Desk) :
    showBuild quiet request outcome events d =
      let collected := events.foldl (collect quiet) ({}, d)
      conclude request outcome collected.1 collected.2 := by
  unfold showBuild conclude
  cases events.foldl (collect quiet) ({}, d)
  rfl

/-! ### What the collector makes of messages -/

def shownStatuses (quiet : Bool) (events : List Event) : String :=
  if quiet then "" else String.join ((statusTexts events).map (· ++ "\n"))

theorem foldl_collect_desk (quiet : Bool) (events : List Event) (panes : Panes) (d : Desk) :
    (events.foldl (collect quiet) (panes, d)).2 =
      { d with errors := d.errors ++ shownStatuses quiet events } := by
  induction events generalizing panes d with
  | nil => cases quiet <;> simp [shownStatuses, statusTexts]
  | cons event events ih =>
    rw [List.foldl_cons]
    cases event with
    | pane pane text => exact ih _ _
    | status text =>
      rw [collect, ih]
      cases quiet with
      | true => rfl
      | false => simp [shownStatuses, statusTexts, Event.status?, Desk.report, String.append_assoc]

theorem foldl_collect_get? (quiet : Bool) (events : List Event) (panes : Panes) (d : Desk)
    (pane : Pane) :
    (events.foldl (collect quiet) (panes, d)).1.get? pane =
      (paneTexts pane events).getLast?.or (panes.get? pane) := by
  induction events generalizing panes d with
  | nil => rfl
  | cons event events ih =>
    rw [List.foldl_cons]
    cases event with
    | status text => exact ih _ _
    | pane other text =>
      rw [collect, ih, paneTexts_pane]
      split
      · rename_i hpane
        rw [hpane, Panes.get?_put_self, List.getLast?_cons]
        cases (paneTexts pane events).getLast? <;> rfl
      · rename_i hpane
        rw [Panes.get?_put_of_ne _ _ (Ne.symm hpane)]

theorem foldl_collect_files (quiet : Bool) (events : List Event) (panes : Panes) (d : Desk)
    (files : FileTree) :
    events.foldl (collect quiet) (panes, { d with files }) =
      ((events.foldl (collect quiet) (panes, d)).1,
        { (events.foldl (collect quiet) (panes, d)).2 with files }) := by
  induction events generalizing panes d with
  | nil => rfl
  | cons event events ih =>
    cases event with
    | pane pane text => exact ih _ _
    | status text =>
      cases quiet with
      | true => exact ih _ _
      | false => exact ih _ (d.report text)

/-! ### Writing the panes -/

section Writing

variable {panes : Panes} {pane : Pane} {d : Desk}

theorem writePane_of_none (h : panes.get? pane = none) (target : Option FilePath) :
    writePane panes pane target d = (.ok (), d) := by
  unfold writePane
  rw [h]

theorem writePane_of_print {text : String} (h : panes.get? pane = some text) :
    writePane panes pane none d =
      (.ok (), d.print ("── " ++ paneTitle pane ++ " ──\n" ++ text ++ "\n")) := by
  unfold writePane
  rw [h]

theorem writePane_of_write {text : String} {path : FilePath} {files : FileTree}
    (h : panes.get? pane = some text)
    (hwrite : d.files.write path (Text.Utf8.encode text) = .ok files) :
    writePane panes pane (some path) d = (.ok (), { d with files }) := by
  unfold writePane
  rw [h]
  simp only [FileTree.writeText, hwrite]

end Writing

def BuildRequest.target? (request : BuildRequest) : Pane → Option FilePath
  | .bytecode => request.bytecodeOut
  | .nativeCode => request.nativeOut

/-- What is printed of the texts of a pane: each under its title, unless they go to a file. -/
def printed (request : BuildRequest) (pane : Pane) (events : List Event) : String :=
  if (request.target? pane).isSome then ""
  else
    String.join ((paneTexts pane events).map fun text =>
      "── " ++ paneTitle pane ++ " ──\n" ++ text ++ "\n")

/-- Whether a file can be written wherever a request wants one, and not the same one twice. -/
structure TargetsOpen (files : FileTree) (request : BuildRequest) : Prop where
  writable : ∀ pane path, request.target? pane = some path →
    ∃ place, files.IsWritableAt path place
  distinct : ∀ pane other path path' place, request.target? pane = some path →
    request.target? other = some path' → files.IsWritableAt path place →
      files.IsWritableAt path' place → pane = other

/-- Whether a tree holds the texts of a pane where a request wants them, and is otherwise as it was
before. -/
structure HoldsPane (request : BuildRequest) (events : List Event) (before after : FileTree)
    (pane : Pane) : Prop where
  parallel : before.Parallel after
  written : ∀ text path place, .pane pane text ∈ events → request.target? pane = some path →
    before.IsWritableAt path place →
      after.find? place =
        some (FileTree.afterWriting (Text.Utf8.encode text) (before.find? place))
  others : ∀ place, (∀ path, request.target? pane = some path →
    before.IsWritableAt path place → paneTexts pane events = []) →
      after.find? place = before.find? place

section Shown

variable {request : BuildRequest} {events : List Event}

/-- A pane without a text, or without a file for it, leaves the tree as it is. -/
theorem holdsPane_self {pane : Pane} {files : FileTree}
    (h : ∀ path, request.target? pane = some path → paneTexts pane events = []) :
    HoldsPane request events files files pane where
  parallel := FileTree.Parallel.refl files
  written text path place htext hpath _ := by
    rw [← mem_paneTexts, h path hpath] at htext
    cases htext
  others _ _ := rfl

theorem exists_writePane {pane : Pane} {panes : Panes} {d : Desk}
    (honce : (paneTexts pane events).length ≤ 1)
    (hpanes : panes.get? pane = (paneTexts pane events).getLast?)
    (hopen : ∀ path, request.target? pane = some path →
      ∃ place, d.files.IsWritableAt path place) :
    ∃ files, writePane panes pane (request.target? pane) d =
        (.ok (), { d with files, output := d.output ++ printed request pane events }) ∧
      HoldsPane request events d.files files pane := by
  rcases htexts : paneTexts pane events with _ | ⟨text, others⟩
  · have hprinted : printed request pane events = "" := by simp [printed, htexts]
    rw [htexts] at hpanes
    refine ⟨d.files, ?_, holdsPane_self fun _ _ => htexts⟩
    rw [writePane_of_none hpanes, hprinted, String.append_empty]
  · obtain rfl : others = [] := by
      rw [htexts] at honce
      simpa using honce
    rw [htexts] at hpanes
    cases htarget : request.target? pane with
    | none =>
      have hprinted : printed request pane events =
          "── " ++ paneTitle pane ++ " ──\n" ++ text ++ "\n" := by
        simp [printed, htarget, htexts]
      refine ⟨d.files, ?_, holdsPane_self fun path hpath => ?_⟩
      · rw [writePane_of_print hpanes, hprinted]
        rfl
      · rw [htarget] at hpath
        cases hpath
    | some path =>
      have hprinted : printed request pane events = "" := by simp [printed, htarget]
      obtain ⟨place, hplace⟩ := hopen path htarget
      obtain ⟨files, hwrite, hparallel, hwritten, hothers⟩ :=
        hplace.exists_write (Text.Utf8.encode text)
      refine ⟨files, ?_, hparallel, ?_, ?_⟩
      · rw [writePane_of_write hpanes hwrite, hprinted, String.append_empty]
      · intro other path' place' hother hpath' hplace'
        rw [htarget] at hpath'
        obtain rfl := Option.some.inj hpath'
        obtain rfl := hplace.unique hplace'
        rw [← mem_paneTexts, htexts] at hother
        obtain rfl := List.mem_singleton.1 hother
        exact hwritten
      · intro other hother
        refine hothers other ?_
        rintro rfl
        have hnone := hother path htarget hplace
        rw [htexts] at hnone
        cases hnone

/-- The file for another pane is as it was, and can still be written. -/
theorem HoldsPane.writable_after {files files' : FileTree} {pane other : Pane}
    (h : HoldsPane request events files files' pane) (hopen : TargetsOpen files request)
    (hother : other ≠ pane) {path : FilePath} (hpath : request.target? other = some path)
    {place : Place} (hplace : files.IsWritableAt path place) :
    files'.find? place = files.find? place ∧ files'.IsWritableAt path place := by
  have hsame : files'.find? place = files.find? place := by
    refine h.others place fun path' hpath' hplace' => ?_
    exact absurd (hopen.distinct other pane path path' place hpath hpath' hplace hplace') hother
  exact ⟨hsame, hplace.of_parallel h.parallel hsame⟩

theorem HoldsPane.writable_before {files files' : FileTree} {pane other : Pane}
    (h : HoldsPane request events files files' pane) (hopen : TargetsOpen files request)
    (hother : other ≠ pane) {path : FilePath} (hpath : request.target? other = some path)
    {place : Place} (hplace : files'.IsWritableAt path place) : files.IsWritableAt path place := by
  obtain ⟨place', hplace'⟩ := hopen.writable other path hpath
  obtain rfl := hplace.unique (h.writable_after hopen hother hpath hplace').2
  exact hplace'

/-- What a desk shows of a build: the texts of its panes, printed or written, and its statuses. -/
structure Shows (request : BuildRequest) (quiet : Bool) (events : List Event)
    (outcome : Except BuildError Outcome) (files : FileTree) (before after : Desk) : Prop where
  output : after.output =
    before.output ++ printed request .bytecode events ++ printed request .nativeCode events
  errors : after.errors =
    before.errors ++ shownStatuses quiet events ++ failureLine (outcomeError outcome)
  written : ∀ pane text path place, .pane pane text ∈ events → request.target? pane = some path →
    files.IsWritableAt path place →
      after.files.find? place =
        some (FileTree.afterWriting (Text.Utf8.encode text) (files.find? place))
  others : ∀ place, (∀ pane path, request.target? pane = some path →
    files.IsWritableAt path place → paneTexts pane events = []) →
      after.files.find? place = files.find? place

theorem holds_both {files middle after : FileTree} (hopen : TargetsOpen files request)
    (hbytecode : HoldsPane request events files middle .bytecode)
    (hnative : HoldsPane request events middle after .nativeCode) :
    (∀ pane text path place, .pane pane text ∈ events → request.target? pane = some path →
      files.IsWritableAt path place →
        after.find? place =
          some (FileTree.afterWriting (Text.Utf8.encode text) (files.find? place))) ∧
    ∀ place, (∀ pane path, request.target? pane = some path →
      files.IsWritableAt path place → paneTexts pane events = []) →
        after.find? place = files.find? place := by
  have hbefore {path : FilePath} {place : Place} (hpath : request.target? .nativeCode = some path)
      (hplace : middle.IsWritableAt path place) : files.IsWritableAt path place :=
    hbytecode.writable_before hopen (by decide) hpath hplace
  constructor
  · intro pane text path place htext hpath hplace
    cases pane with
    | bytecode =>
      -- The native code is written later, to another place.
      rw [← hbytecode.written text path place htext hpath hplace]
      refine hnative.others place fun path' hpath' hplace' => ?_
      have hsame := hopen.distinct .bytecode .nativeCode path path' place hpath hpath' hplace
        (hbefore hpath' hplace')
      cases hsame
    | nativeCode =>
      obtain ⟨hsame, hmiddle⟩ := hbytecode.writable_after hopen (by decide) hpath hplace
      rw [← hsame]
      exact hnative.written text path place htext hpath hmiddle
  · intro place hplace
    rw [hnative.others place fun path hpath hmiddle =>
      hplace .nativeCode path hpath (hbefore hpath hmiddle)]
    exact hbytecode.others place (hplace .bytecode)

/-- The panes are written one after the other, and then the outcome is told. -/
theorem exists_conclude {panes : Panes} {d : Desk}
    (honce : ∀ pane, (paneTexts pane events).length ≤ 1)
    (hpanes : ∀ pane, panes.get? pane = (paneTexts pane events).getLast?)
    (hopen : TargetsOpen d.files request) (outcome : Except BuildError Outcome) :
    ∃ after, conclude request outcome panes d = (outcomeError outcome, after) ∧
      after.errors = d.errors ∧
      after.output = d.output ++ printed request .bytecode events ++
        printed request .nativeCode events ∧
      ∃ middle, HoldsPane request events d.files middle .bytecode ∧
        HoldsPane request events middle after.files .nativeCode := by
  obtain ⟨middle, hbytecode, hmiddle⟩ := exists_writePane (d := d) (honce .bytecode)
    (hpanes .bytecode) (hopen.writable .bytecode)
  obtain ⟨files, hnative, hfiles⟩ := exists_writePane (honce .nativeCode) (hpanes .nativeCode)
    (d := { d with files := middle, output := d.output ++ printed request .bytecode events })
    fun path hpath => by
      obtain ⟨place, hplace⟩ := hopen.writable .nativeCode path hpath
      exact ⟨place, (hmiddle.writable_after hopen (by decide) hpath hplace).2⟩
  refine ⟨{ d with
    files
    output := d.output ++ printed request .bytecode events ++ printed request .nativeCode events },
    ?_, rfl, rfl, middle, hmiddle, hfiles⟩
  unfold conclude
  rw [show request.bytecodeOut = request.target? .bytecode from rfl, hbytecode]
  dsimp only
  rw [show request.nativeOut = request.target? .nativeCode from rfl, hnative]

end Shown

theorem exitCode_answered (outcome : Except BuildError Outcome) (d : Desk) :
    ((answered (outcomeError outcome, d)).1 = 0 ↔ outcome = .ok .completed) ∧
      ((answered (outcomeError outcome, d)).1 = 1 ↔ ∃ stage, outcome = .ok (.failed stage)) ∧
      ∀ e, outcome = .error e →
        (answered (outcomeError outcome, d)).1 = (CommandError.build e).exitCode := by
  rcases outcome with e | ⟨⟩ | stage
  · cases e <;> simp [outcomeError, answered, CommandError.exitCode]
  · simp [outcomeError, answered]
  · simp [outcomeError, answered, CommandError.exitCode]

namespace Tasks

def finish (request : BuildRequest) (outcome : Except BuildError Outcome) (t : Tasks ρ) :
    Nat × Desk :=
  answered (conclude request outcome t.panes { t.desk with files := t.build.files })

theorem run_eq_finish {env : Toolchain.Environment} {arguments : List String} {quiet : Bool}
    {config : Option FilePath} {request : BuildRequest} {files prepared : FileTree}
    {s : Config.Settings} {source : String} {plan : Plan} {schedule : List Task}
    {outcome : Except BuildError Outcome} {t : Tasks Unit}
    (hasked : asked arguments = .run ⟨quiet, config, .build request⟩)
    (hplanned : IsPlanned env files config request s source plan prepared)
    (ht : t = play plan (toolRunner env (buildSettings s request)) quiet
      (start source () { files := prepared }) schedule)
    (hover : t.IsOver outcome) (architecture : String) (input : Listing.ByteStream) :
    run env architecture arguments input files = t.finish request outcome := by
  obtain ⟨halone, hcollected⟩ := of_isOver ht hover
  have htaken : t.sent.foldl (collect quiet) ({}, { files := t.build.files }) =
      (t.panes, { t.desk with files := t.build.files }) := by
    have hsame := foldl_collect_files quiet t.sent {} { files := prepared } t.build.files
    rw [hsame]
    exact congrArg (fun s : Panes × Desk => (s.1, { s.2 with files := t.build.files }))
      hcollected.symm
  rw [run_build hasked, hplanned.buildWith_eq, halone]
  show answered (showBuild quiet request outcome t.sent { files := t.build.files }) = _
  rw [showBuild_eq, htaken]
  rfl

section Over

variable {plan : Plan} {runner : Runner ρ} {source : String} {r : ρ} {quiet : Bool} {d : Desk}
  {schedule : List Task} {outcome : Except BuildError Outcome} {t : Tasks ρ}
  (ht : t = play plan runner quiet (start source r d) schedule) (hover : t.IsOver outcome)

include ht hover

theorem length_paneTexts_sent_le_one (pane : Pane) : (paneTexts pane t.sent).length ≤ 1 := by
  obtain ⟨halone, -⟩ := of_isOver ht hover
  have hsent := plan.length_paneTexts_run_le_one runner r source d.files pane
  rw [halone] at hsent
  exact hsent

theorem get?_panes_of_isOver (pane : Pane) :
    t.panes.get? pane = (paneTexts pane t.sent).getLast? := by
  obtain ⟨-, hcollected⟩ := of_isOver ht hover
  have htaken := foldl_collect_get? quiet t.sent {} d pane
  have hempty : (({} : Panes).get? pane) = none := by cases pane <;> rfl
  rw [hempty, Option.or_none] at htaken
  rw [← htaken]
  exact congrArg (fun s : Panes × Desk => s.1.get? pane) hcollected

theorem desk_of_isOver : t.desk = { d with errors := d.errors ++ shownStatuses quiet t.sent } := by
  obtain ⟨-, hcollected⟩ := of_isOver ht hover
  exact (congrArg Prod.snd hcollected).trans (foldl_collect_desk quiet t.sent {} d)

end Over

end Tasks

/-! ### A small build whose compiler fails

What the compiler says goes to a file. The file for the native code stays as it was. -/

def smallRequest : BuildRequest :=
  { input := ⟨"/Main.kt"⟩, bytecodeOut := some ⟨"/b"⟩, nativeOut := some ⟨"/n"⟩ }

theorem isWritableAt_of_steps {t : FileTree} {p : FilePath} {name : String}
    (habsolute : p.isAbsolute = true) (hzero : '\x00' ∉ p.text.toList)
    (hshort : p.text.utf8ByteSize < FileTree.maxPath) (hslash : p.endsInSlash = false)
    (hsteps : p.steps = [name]) (hname : FileTree.IsLookedUp name)
    (hnone : t.find? [name] = none) : t.IsWritableAt p [name] := by
  have hlocate (follow : Bool) : t.locate p follow = .ok [name] := by
    rw [t.locate_of_isAbsolute habsolute hzero hshort, hsteps]
    exact t.walk_name follow _ hname (by simp [hnone])
  have hlast : t.lastTarget p FileTree.maxLinks = p := by
    refine FileTree.lastTarget_of_no_link (fun place target hplace hlink => ?_) _
    obtain rfl := Except.ok.inj ((hlocate false).symm.trans hplace)
    rw [hnone] at hlink
    cases hlink
  constructor
  · simp only [FileTree.locateForWriting, hlast, hslash, hlocate, bind, Except.bind]
    rfl
  · rw [hnone]
    rfl

theorem smallRequest_targetsOpen : TargetsOpen smallReady smallRequest := by
  have hbytecode : smallReady.IsWritableAt ⟨"/b"⟩ ["b"] :=
    isWritableAt_of_steps (by decide) (by decide) (by decide) (by decide)
      (by decide) ⟨by decide, by decide, by decide⟩ (by decide)
  have hnative : smallReady.IsWritableAt ⟨"/n"⟩ ["n"] :=
    isWritableAt_of_steps (by decide) (by decide) (by decide) (by decide)
      (by decide) ⟨by decide, by decide, by decide⟩ (by decide)
  have hplaces (pane : Pane) (path : FilePath) (h : smallRequest.target? pane = some path) :
      smallReady.IsWritableAt path [match pane with | .bytecode => "b" | .nativeCode => "n"] := by
    cases pane with
    | bytecode =>
      obtain rfl := Option.some.inj h
      exact hbytecode
    | nativeCode =>
      obtain rfl := Option.some.inj h
      exact hnative
  refine ⟨fun pane path hpath => ⟨_, hplaces pane path hpath⟩, ?_⟩
  intro pane other path path' place hpath hpath' hplace hplace'
  have hfirst := hplace.unique (hplaces pane path hpath)
  have hsecond := hplace'.unique (hplaces other path' hpath')
  rw [hfirst] at hsecond
  cases pane <;> cases other <;> simp at hsecond ⊢

end SnippetLens.Cli
