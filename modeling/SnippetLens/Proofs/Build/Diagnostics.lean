import SnippetLens.Proofs.Build.Errors
import SnippetLens.Proofs.Build.Footprint
import SnippetLens.Proofs.Text.Erase

/-!
What a build shows of the diagnostics of the compiler.

The compiler is given the path of the source, and begins its lines with it. The path is the scratch
directory joined with the name of the source; what is erased from the lines is the scratch directory
with a slash behind it. The two are spelled alike unless the scratch directory is written with a
slash at its end: joining adds no second one, and then nothing is erased at the front of a line.

Behind the front of a line only what runs from the name of the source into the rest of the line can
be erased besides, and then it is.
-/

namespace SnippetLens.Build

open Files Toolchain Text

variable {ρ : Type}

def locatedLines (path : String) (rests : List String) (ended : Bool) : String :=
  "\n".intercalate (rests.map (path ++ ·) ++ if ended then [""] else [])

/-! ### The lines -/

section Lines

variable {scratch : FilePath} {rests : List String}

theorem prefix_ne_nil (scratch : FilePath) : (scratch.text ++ "/").toList ≠ [] := by
  simp

/-- A line is shown with the name of the source for its path exactly if the scratch directory is
written without a slash at its end, and does not stand in what is shown. -/
theorem eraseFrom_line_eq_iff (h : scratch.text ≠ "") (rest : String) :
    eraseFrom (scratch.text ++ "/").toList 0 ((scratch / sourceFile).text ++ rest).toList =
        (sourceFile ++ rest).toList ↔
      scratch.endsInSlash = false ∧
        contains (scratch.text ++ "/") (sourceFile ++ rest) = false := by
  have hne := prefix_ne_nil scratch
  rw [FilePath.text_join scratch Plan.isEntryName_files.1 h]
  cases hslash : scratch.endsInSlash with
  | false =>
    have hline : (scratch.text ++ "/" ++ sourceFile ++ rest).toList =
        (scratch.text ++ "/").toList ++ (sourceFile ++ rest).toList := by
      simp
    rw [if_neg (by simp), hline, eraseFrom_self_append hne, eraseFrom_eq_self_iff hne]
    simp [contains]
  | true =>
    -- Each place that is erased is longer than what has to go.
    simp only [if_true, Bool.true_eq_false, false_and, iff_false]
    intro heq
    have hpos : 0 < scratch.text.toList.length := List.length_pos_iff.2 (by simpa using h)
    obtain ⟨count, hcount⟩ := exists_length_eraseFrom hne
      (Nat.zero_le (scratch.text ++ sourceFile ++ rest).toList.length)
    rw [heq] at hcount
    simp only [String.toList_append, List.length_append] at hcount
    cases count with
    | zero => omega
    | succ count =>
      rw [Nat.add_mul] at hcount
      simp at hcount
      omega

theorem intercalate_inj {x : Char} {lines lines' : List (List Char)} (h : ∀ l ∈ lines, x ∉ l)
    (h' : ∀ l ∈ lines', x ∉ l) (hne : lines ≠ []) (hne' : lines' ≠ []) :
    [x].intercalate lines = [x].intercalate lines' ↔ lines = lines' := by
  refine ⟨fun heq => ?_, fun heq => by rw [heq]⟩
  rw [← List.splitOn_intercalate x h hne, heq, List.splitOn_intercalate x h' hne']

theorem toList_locatedLines (path : String) (rests : List String) (ended : Bool) :
    (locatedLines path rests ended).toList =
      ['\n'].intercalate
        (rests.map (fun rest => (path ++ rest).toList) ++ if ended then [[]] else []) := by
  rw [locatedLines, String.toList_intercalate, List.map_append, List.map_map]
  cases ended <;> rfl

theorem notMem_lines {path : String} (h : ∀ rest ∈ rests, '\n' ∉ (path ++ rest).toList)
    (ended : Bool) :
    ∀ line ∈ rests.map (fun rest => (path ++ rest).toList) ++ (if ended then [[]] else []),
      '\n' ∉ line := by
  intro line hline
  rcases List.mem_append.1 hline with hline | hline
  · obtain ⟨rest, hrest, rfl⟩ := List.mem_map.1 hline
    exact h rest hrest
  · cases ended <;> simp_all

/-- The lines are shown with the name of the source exactly if each of them is. -/
theorem eraseAll_locatedLines_eq_iff (h : scratch.text ≠ "")
    (hlines : ∀ rest ∈ rests, '\n' ∉ ((scratch / sourceFile).text ++ rest).toList) (ended : Bool) :
    eraseAll (scratch.text ++ "/") (locatedLines (scratch / sourceFile).text rests ended) =
        locatedLines sourceFile rests ended ↔
      ∀ rest ∈ rests, scratch.endsInSlash = false ∧
        contains (scratch.text ++ "/") (sourceFile ++ rest) = false := by
  have hne := prefix_ne_nil scratch
  have hempty : (scratch.text ++ "/").isEmpty = false := by simp
  rcases List.eq_nil_or_concat rests with rfl | ⟨front, last, hrests⟩
  · cases ended <;> simp [locatedLines, eraseAll, eraseFrom]
  have hsome : rests ≠ [] := by simp [hrests]
  have hneedle : '\n' ∉ (scratch.text ++ "/").toList := by
    have hpath := hlines last (by simp [hrests])
    rw [FilePath.text_join scratch Plan.isEntryName_files.1 h] at hpath
    cases hslash : scratch.endsInSlash <;> simp_all
  have hname : ∀ rest ∈ rests, '\n' ∉ (sourceFile ++ rest).toList := by
    intro rest hrest
    have hsource : '\n' ∉ sourceFile.toList := by decide
    have hline := hlines rest hrest
    simp only [String.toList_append, List.mem_append, not_or] at hline ⊢
    exact ⟨hsource, hline.2⟩
  have herased : ∀ line ∈ (rests.map (fun rest => ((scratch / sourceFile).text ++ rest).toList) ++
      (if ended then [[]] else [])).map (eraseFrom (scratch.text ++ "/").toList 0),
      '\n' ∉ line := by
    intro line hline
    obtain ⟨whole, hwhole, rfl⟩ := List.mem_map.1 hline
    exact fun hmem => notMem_lines hlines ended whole hwhole ((eraseFrom_sublist ..).subset hmem)
  have hlast : (if ended then [[]] else []).map (eraseFrom (scratch.text ++ "/").toList 0) =
      if ended then [[]] else [] := by
    cases ended <;> rfl
  rw [eraseAll, hempty, if_neg (by simp), ← String.toList_inj, String.toList_ofList,
    toList_locatedLines, toList_locatedLines, eraseFrom_intercalate hne hneedle,
    intercalate_inj herased (notMem_lines hname ended) (by simp [hsome]) (by simp [hsome]),
    List.map_append, hlast, List.append_left_inj, List.map_map, List.map_inj_left]
  exact forall₂_congr fun rest _ => eraseFrom_line_eq_iff h rest

end Lines

/-! ### Whole builds -/

namespace Plan

/-- A build whose compiler fails shows its lines with the name of the source for its path exactly if
the scratch directory is written without a slash at its end, and stands with a slash behind it in
none of the lines as they are to be shown. -/
theorem shown_diagnostics_eq_iff {plan : Plan} {runner : Runner ρ} {r r' : ρ} {source : String}
    {files ready left : FileTree} {result : ToolResult} {path : String} {rests : List String}
    {ended : Bool} (hscratch : plan.scratch.text ≠ "")
    (hsetUp : plan.setUp source files = (.ok (), ready))
    (hrun : runner.run r (compileCommand plan.locations) plan.scratch ready = (result, left, r'))
    (hfailed : result.exitCode ≠ 0)
    (hpath : (compileCommand plan.locations).arguments.getLast? = some path)
    (hlines : ∀ rest ∈ rests, '\n' ∉ (path ++ rest).toList)
    (houtput : result.output = locatedLines path rests ended) :
    ∃ text, (plan.run runner r (.start source files {})).2.1.channel.waiting =
        [.status (Stage.compile.status plan.options.optimize), .pane .bytecode text] ∧
      (text = locatedLines sourceFile rests ended ↔
        ∀ rest ∈ rests, plan.scratch.endsInSlash = false ∧
          contains (plan.scratch.text ++ "/") (sourceFile ++ rest) = false) := by
  obtain rfl : (plan.scratch / sourceFile).text = path := Option.some.inj hpath
  have hsucceeded : result.succeeded = false := by simpa [ToolResult.succeeded] using hfailed
  refine ⟨eraseAll (plan.scratch.text ++ "/") result.output, ?_, ?_⟩
  · rw [run_notCompiled hsetUp hrun (by simp [hsucceeded]), Channel.waiting_sendAll rfl]
    simp only [paneMessages, hsucceeded, List.nil_append]
  · rw [houtput]
    exact eraseAll_locatedLines_eq_iff hscratch hlines ended

end Plan

/-! ### A compiler that fails -/

def smallDiagnostics (path : String) : String :=
  path ++ ":1:5: error: x\n" ++ path ++ ":2:1: warning: y\n"

theorem shown_smallDiagnostics :
    let output := smallDiagnostics "/w/KotlinExplorer.kt"
    let rests := [":1:5: error: x", ":2:1: warning: y"]
    smallPlan.scratch.text ≠ "" ∧
      smallPlan.setUp "" smallFiles = (.ok (), smallReady) ∧
      (failingRunner output).run () (compileCommand smallPlan.locations) smallPlan.scratch
        smallReady = (⟨1, output⟩, smallReady, ()) ∧
      (compileCommand smallPlan.locations).arguments.getLast? = some "/w/KotlinExplorer.kt" ∧
      (∀ rest ∈ rests, '\n' ∉ ("/w/KotlinExplorer.kt" ++ rest).toList) ∧
      output = locatedLines "/w/KotlinExplorer.kt" rests true ∧
      ∃ text,
        (smallPlan.run (failingRunner output) () (.start "" smallFiles {})).2.1.channel.waiting =
            [.status (Stage.compile.status smallPlan.options.optimize), .pane .bytecode text] ∧
          (text = locatedLines sourceFile rests true ↔
            ∀ rest ∈ rests, smallPlan.scratch.endsInSlash = false ∧
              contains (smallPlan.scratch.text ++ "/") (sourceFile ++ rest) = false) := by
  intro output rests
  have hscratch : smallPlan.scratch.text ≠ "" := by decide
  have hpath : (compileCommand smallPlan.locations).arguments.getLast? =
      some "/w/KotlinExplorer.kt" := by decide +kernel
  have hlines : ∀ rest ∈ rests, '\n' ∉ ("/w/KotlinExplorer.kt" ++ rest).toList := by
    decide +kernel
  have houtput : output = locatedLines "/w/KotlinExplorer.kt" rests true := by decide +kernel
  exact ⟨hscratch, setUp_smallFiles, rfl, hpath, hlines, houtput,
    Plan.shown_diagnostics_eq_iff hscratch setUp_smallFiles rfl (by decide) hpath hlines houtput⟩

def slashedPlan : Plan :=
  { smallPlan with locations := { smallPlan.locations with scratch := ⟨"/w/"⟩ } }

theorem locate_slashedScratch {files : FileTree} (h : files.find? ["w"] = some .directory) :
    files.locate ⟨"/w/"⟩ = .ok ["w"] := by
  have hname := maxName_smallNames "w" (by simp)
  rw [locate_smallPath "/w/" ["w", "."] (by simp [smallPaths])]
  simp [FileTree.walk, hname, h]

theorem setUp_slashedPlan : slashedPlan.setUp "" smallFiles = (.ok (), smallReady) := by
  have hdirectory : smallFiles.find? ["w"] = some .directory := by decide
  have hplace : smallFiles.IsDirectoryAt ⟨"/w/"⟩ ["w"] :=
    FileTree.isDirectoryAt_iff.2 ⟨locate_slashedScratch hdirectory, hdirectory⟩
  have hvalid : slashedPlan.locations.missing smallFiles = [] := by
    have htool : smallFiles.find? ["t"] = some (.file [] true) := by decide
    have hreaches : smallFiles.reaches ⟨"/t"⟩ = true :=
      FileTree.reaches_of_locate (locate_smallTool htool) htool
    have hscratch : smallFiles.reaches ⟨"/w/"⟩ = true :=
      FileTree.reaches_of_locate (locate_slashedScratch hdirectory) hdirectory
    simp [Locations.missing, Locations.labelled, slashedPlan, smallPlan, hreaches, hscratch]
  have hclasses : classFiles smallFiles ⟨"/w/"⟩ = .ok [] := by
    refine (plainDirectory_smallFiles.classFiles_eq_ok_iff hplace).2 ⟨.nil, fun name => ?_⟩
    have hnames : smallFiles.namesIn ["w"] = [] := by decide
    simp [hnames]
  have hclean : cleanClassFiles smallFiles slashedPlan.scratch = .ok (0, smallFiles) := by
    simp only [cleanClassFiles, slashedPlan, Plan.scratch, hclasses, bind, Except.bind]
    rfl
  have hjoin : (⟨"/w/"⟩ : FilePath) / sourceFile = (⟨"/w"⟩ : FilePath) / sourceFile := by
    decide
  have hsource : writeSource smallFiles slashedPlan.scratch "" =
      .ok (⟨"/w/KotlinExplorer.kt"⟩, smallReady) := by
    simp only [← writeSource_smallFiles, writeSource, slashedPlan, Plan.scratch, hjoin]
  exact Plan.setUp_eq_ok hvalid hclean hsource

/-- There the lines are shown with the whole path. -/
theorem shown_slashedDiagnostics_ne :
    let output := smallDiagnostics "/w/KotlinExplorer.kt"
    let rests := [":1:5: error: x", ":2:1: warning: y"]
    (compileCommand slashedPlan.locations).arguments.getLast? = some "/w/KotlinExplorer.kt" ∧
      output = locatedLines "/w/KotlinExplorer.kt" rests true ∧
      (∀ rest ∈ rests, contains slashedPlan.scratch.text rest = false) ∧
      (slashedPlan.run (failingRunner output) () (.start "" smallFiles {})).1 =
        .ok (.failed .compile) ∧
      (slashedPlan.run (failingRunner output) () (.start "" smallFiles {})).2.1.channel.waiting =
        [.status (Stage.compile.status slashedPlan.options.optimize), .pane .bytecode output] ∧
      output ≠ locatedLines sourceFile rests true := by
  intro output rests
  have hcall : (failingRunner output).run () (compileCommand slashedPlan.locations)
      slashedPlan.scratch smallReady = (⟨1, output⟩, smallReady, ()) := rfl
  have hrun := Plan.run_notCompiled setUp_slashedPlan hcall (by decide) {}
  have hpanes : slashedPlan.paneMessages .compile ⟨1, output⟩ = [.pane .bytecode output] := by
    decide +kernel
  refine ⟨by decide +kernel, by decide +kernel, by decide +kernel, ?_, ?_, by decide +kernel⟩
  · rw [hrun]
  · rw [hrun, Channel.waiting_sendAll rfl, hpanes]
    rfl

end SnippetLens.Build
