import SnippetLens.Proofs.Build.Errors

/-!
What a step of a build sends, and how often a build sends to a pane.

A step does not look at the channel: whoever receives and whatever is still waiting, it sends the
same messages. A run sends to each pane once at most. A stage that shows something and goes on is
the last one of its pane, and one that shows something else ends the build.
-/

namespace SnippetLens.Build

open Files

variable {ρ : Type}

/-! ### The texts of messages -/

def Event.status? : Event → Option String
  | .status text => some text
  | .pane .. => none

def Event.textFor? (pane : Pane) : Event → Option String
  | .status _ => none
  | .pane other text => if other = pane then some text else none

def statusTexts (events : List Event) : List String :=
  events.filterMap Event.status?

def paneTexts (pane : Pane) (events : List Event) : List String :=
  events.filterMap (Event.textFor? pane)

@[simp] theorem paneTexts_nil (pane : Pane) : paneTexts pane [] = [] := rfl

@[simp] theorem paneTexts_status (pane : Pane) (text : String) (events : List Event) :
    paneTexts pane (.status text :: events) = paneTexts pane events := rfl

theorem paneTexts_pane (pane other : Pane) (text : String) (events : List Event) :
    paneTexts pane (.pane other text :: events) =
      if other = pane then text :: paneTexts pane events else paneTexts pane events := by
  by_cases h : other = pane <;> simp [paneTexts, Event.textFor?, h]

theorem mem_paneTexts {pane : Pane} {events : List Event} {text : String} :
    text ∈ paneTexts pane events ↔ .pane pane text ∈ events := by
  rw [paneTexts, List.mem_filterMap]
  constructor
  · rintro ⟨event, hevent, htext⟩
    cases event with
    | status other => cases htext
    | pane other told =>
      rw [Event.textFor?] at htext
      split at htext
      · rename_i hpane
        subst hpane
        obtain rfl := Option.some.inj htext
        exact hevent
      · cases htext
  · intro h
    exact ⟨.pane pane text, h, if_pos rfl⟩

namespace Plan

/-! ### One step -/

theorem exists_advance (plan : Plan) (phase : Phase) (files : FileTree) :
    ∃ phase' files' events, ∀ c, plan.advance ⟨phase, files, c⟩ =
      ⟨phase', files', c.sendAll events⟩ := by
  cases phase with
  | opening source =>
    rcases hsetUp : plan.setUp source files with ⟨e | _, left⟩
    · exact ⟨.ended (.error e), left, [], fun c => by simp only [advance, hsetUp]; rfl⟩
    · exact ⟨.between Stage.all, left, [], fun c => by simp only [advance, hsetUp]; rfl⟩
  | between stages =>
    cases stages with
    | nil => exact ⟨.ended (.ok .completed), files, [.status readyStatus], fun c => rfl⟩
    | cons stage rest =>
      rcases hprepare : plan.prepare files stage with ⟨e | command, left⟩
      · exact ⟨.ended (.error (.workspace e)), left, [.status _],
          fun c => by simp only [advance, hprepare]; rfl⟩
      · exact ⟨.waiting stage command rest, left, [.status _],
          fun c => by simp only [advance, hprepare]; rfl⟩
  | waiting | ended => exact ⟨_, files, [], fun c => rfl⟩

/-! ### At most one text for a pane -/

theorem paneMessages_eq (plan : Plan) (stage : Stage) (result : ToolResult) :
    plan.paneMessages stage result = [] ∨
      (result.succeeded = true → stage.onSuccess ≠ .nothing) ∧
        ∃ text, plan.paneMessages stage result = [.pane stage.pane text] := by
  cases stage <;> cases hresult : result.succeeded <;>
    simp [paneMessages, hresult, Stage.onSuccess, Stage.pane]

/-- A stage that shows something and goes on is the last one of its pane. -/
def LastOfPane (stage later : Stage) : Prop :=
  stage.onSuccess ≠ .nothing → stage.pane ≠ later.pane

instance (stage later : Stage) : Decidable (LastOfPane stage later) :=
  inferInstanceAs (Decidable (_ → _))

theorem pairwise_lastOfPane : Stage.all.Pairwise LastOfPane := by
  decide

/-- Whether messages tell each pane one text at most, and only the panes of some stages. -/
structure OncePerPane (stages : List Stage) (events : List Event) : Prop where
  once : ∀ pane, (paneTexts pane events).length ≤ 1
  known : ∀ pane, (∀ stage ∈ stages, stage.pane ≠ pane) → paneTexts pane events = []

theorem oncePerPane_status (stages : List Stage) (text : String) :
    OncePerPane stages [.status text] :=
  ⟨fun _ => Nat.zero_le _, fun _ _ => rfl⟩

theorem oncePerPane_paneMessages (plan : Plan) (stage : Stage) (rest : List Stage)
    (result : ToolResult) (text : String) :
    OncePerPane (stage :: rest) (.status text :: plan.paneMessages stage result) := by
  rcases plan.paneMessages_eq stage result with hnone | ⟨-, shown, hone⟩
  · rw [hnone]
    exact oncePerPane_status _ text
  · rw [hone]
    refine ⟨fun pane => ?_, fun pane hpane => ?_⟩
    · rw [paneTexts_status, paneTexts_pane]
      split <;> simp
    · rw [paneTexts_status, paneTexts_pane, if_neg (hpane stage (by simp)), paneTexts_nil]

/-- The messages of a stage whose tool succeeded, followed by those of the stages behind it. -/
theorem OncePerPane.cons {stage : Stage} {rest : List Stage} {result : ToolResult}
    {events : List Event} (h : OncePerPane rest events)
    (hlast : ∀ later ∈ rest, LastOfPane stage later) (hsucceeded : result.succeeded = true)
    (plan : Plan) (text : String) :
    OncePerPane (stage :: rest) (.status text :: (plan.paneMessages stage result ++ events)) := by
  have hrest {pane : Pane} (hpane : ∀ other ∈ stage :: rest, other.pane ≠ pane) :
      paneTexts pane events = [] :=
    h.known pane fun later hlater => hpane later (by simp [hlater])
  rcases plan.paneMessages_eq stage result with hnone | ⟨hshows, shown, hone⟩
  · rw [hnone]
    exact ⟨h.once, fun pane => hrest⟩
  · rw [hone, List.singleton_append]
    refine ⟨fun pane => ?_, fun pane hpane => ?_⟩
    · rw [paneTexts_status, paneTexts_pane]
      split
      · rename_i hstage
        have hlater : paneTexts pane events = [] :=
          h.known pane fun later hlater => hstage ▸ (hlast later hlater (hshows hsucceeded)).symm
        simp [hlater]
      · exact h.once pane
    · rw [paneTexts_status, paneTexts_pane, if_neg (hpane stage (by simp)), hrest hpane]

theorem exists_oncePerPane (plan : Plan) (runner : Runner ρ) {stages : List Stage}
    (hstages : stages.Pairwise LastOfPane) (r : ρ) (files : FileTree) :
    ∃ events, OncePerPane stages events ∧ ∀ c,
      (plan.run runner r ⟨.between stages, files, c⟩).2.1.channel = c.sendAll events := by
  induction stages generalizing r files with
  | nil =>
    refine ⟨[.status readyStatus], oncePerPane_status _ _, fun c => ?_⟩
    rw [run_between_nil]
    rfl
  | cons stage rest ih =>
    obtain ⟨hlast, hrest⟩ := List.pairwise_cons.1 hstages
    rcases hprepare : plan.prepare files stage with ⟨e | command, prepared⟩
    · refine ⟨[.status (stage.status plan.options.optimize)], oncePerPane_status _ _, fun c => ?_⟩
      rw [run_between_cons_error hprepare]
      rfl
    · rcases hrun : runner.run r command plan.scratch prepared with ⟨result, left, r'⟩
      -- Only where the tool succeeded do other stages follow.
      by_cases hsucceeded : result.succeeded = true
      · obtain ⟨events, honce, hevents⟩ := ih hrest r' left
        refine ⟨_, honce.cons hlast hsucceeded plan (stage.status plan.options.optimize),
          fun c => ?_⟩
        rw [run_between_cons hprepare hrun, if_pos hsucceeded, hevents, ← Channel.sendAll_append]
        rfl
      · refine ⟨_, oncePerPane_paneMessages plan stage rest result
          (stage.status plan.options.optimize), fun c => ?_⟩
        rw [run_between_cons hprepare hrun, if_neg hsucceeded, run_ended]

theorem length_paneTexts_run_le_one (plan : Plan) (runner : Runner ρ) (r : ρ) (source : String)
    (files : FileTree) (pane : Pane) :
    (paneTexts pane (plan.run runner r (.start source files {})).2.1.channel.waiting).length ≤
      1 := by
  have hwatched : ({} : Channel).watched := rfl
  rcases hsetUp : plan.setUp source files with ⟨e | _, ready⟩
  · rw [Progress.start, run_opening]
    simp [advance, hsetUp, run_ended, paneTexts]
  · obtain ⟨events, honce, hevents⟩ :=
      exists_oncePerPane plan runner pairwise_lastOfPane r ready
    rw [run_start hsetUp, hevents, Channel.waiting_sendAll hwatched]
    exact honce.once pane

end Plan

end SnippetLens.Build
