import SnippetLens.Cli.Panes
import SnippetLens.Proofs.Build.Messages

/-!
A build and the collector of its messages, as two tasks that take turns.

The build sends, and the collector takes what was sent first, prints it or keeps it. Which of the
two goes on next is not known, and it does not matter. A build whose messages nobody had received
yet would go on alike, and what the collector has made of its messages is what it makes of the first
ones sent. Both tasks can end from wherever they are: each step brings the build nearer to its end,
and once it has ended nothing is sent any more.
-/

namespace SnippetLens.Cli

open Files Build

variable {ρ : Type}

/-! ### Two tasks -/

/-- A build with what it has sent so far, and what the collector has made of what it received. -/
structure Tasks (ρ : Type) where
  build : Progress
  tools : ρ
  sent : List Event := []
  panes : Panes := {}
  desk : Desk

inductive Task where
  | build
  | collector

def buildStep (plan : Plan) (runner : Runner ρ) (b : Progress) (r : ρ) : Progress × ρ :=
  match b.phase with
  | .waiting _ command _ =>
    let (result, left, r) := runner.run r command plan.scratch b.files
    (plan.answer b result left, r)
  | .opening _ | .between _ | .ended _ => (plan.advance b, r)

namespace Tasks

def start (source : String) (r : ρ) (d : Desk) : Tasks ρ :=
  { build := .start source d.files {}, tools := r, desk := d }

/-- The build goes on. What it sends stands behind what is waiting. -/
def goOn (plan : Plan) (runner : Runner ρ) (t : Tasks ρ) : Tasks ρ :=
  let (build, tools) := buildStep plan runner t.build t.tools
  let events := build.channel.waiting.drop t.build.channel.waiting.length
  { t with build, tools, sent := t.sent ++ events }

def collectNext (quiet : Bool) (t : Tasks ρ) : Tasks ρ :=
  match t.build.channel.receive with
  | (none, _) => t
  | (some event, channel) =>
    let (panes, desk) := collect quiet (t.panes, t.desk) event
    { t with build := { t.build with channel }, panes, desk }

def act (plan : Plan) (runner : Runner ρ) (quiet : Bool) (t : Tasks ρ) : Task → Tasks ρ
  | .build => t.goOn plan runner
  | .collector => t.collectNext quiet

def play (plan : Plan) (runner : Runner ρ) (quiet : Bool) (t : Tasks ρ) (schedule : List Task) :
    Tasks ρ :=
  schedule.foldl (act plan runner quiet) t

/-- Whether the build has ended so and everything that it sent was received. -/
structure IsOver (t : Tasks ρ) (outcome : Except BuildError Outcome) : Prop where
  ended : t.build.phase = .ended outcome
  received : t.build.channel.waiting = []

end Tasks

/-! ### Steps of the build -/

section Steps

variable (plan : Plan) (runner : Runner ρ)

theorem exists_buildStep (phase : Phase) (files : FileTree) (r : ρ) :
    ∃ phase' files' r' events, ∀ c, buildStep plan runner ⟨phase, files, c⟩ r =
      (⟨phase', files', c.sendAll events⟩, r') := by
  cases phase with
  | waiting stage command rest =>
    rcases hrun : runner.run r command plan.scratch files with ⟨result, left, r'⟩
    refine ⟨if result.succeeded then .between rest else .ended (.ok (.failed stage)), left, r',
      plan.paneMessages stage result, fun c => ?_⟩
    simp only [buildStep, hrun, Plan.answer_waiting]
  | opening source =>
    obtain ⟨phase', files', events, hadvance⟩ := plan.exists_advance (.opening source) files
    exact ⟨phase', files', r, events, fun c => by rw [← hadvance]; rfl⟩
  | between stages =>
    obtain ⟨phase', files', events, hadvance⟩ := plan.exists_advance (.between stages) files
    exact ⟨phase', files', r, events, fun c => by rw [← hadvance]; rfl⟩
  | ended result => exact ⟨.ended result, files, r, [], fun c => rfl⟩

theorem run_buildStep (b : Progress) (r : ρ) :
    plan.run runner (buildStep plan runner b r).2 (buildStep plan runner b r).1 =
      plan.run runner r b := by
  obtain ⟨phase, files, c⟩ := b
  cases phase with
  | waiting stage command rest => rw [Plan.run_waiting]; rfl
  | opening source => exact (Plan.run_opening plan runner r files c source).symm
  | between stages => exact (Plan.run_between plan runner r files c stages).symm
  | ended => rfl

theorem weight_buildStep_lt {b : Progress} (h : b.phase.weight ≠ 0) (r : ρ) :
    (buildStep plan runner b r).1.phase.weight < b.phase.weight := by
  obtain ⟨phase, files, c⟩ := b
  cases phase with
  | waiting stage command rest => exact plan.weight_answer_lt rfl _ _
  | opening | between => exact plan.weight_advance_lt h (by simp)
  | ended => exact absurd rfl h

end Steps

namespace Tasks

variable {plan : Plan} {runner : Runner ρ} {quiet : Bool}

/-! ### What every schedule keeps -/

def unread (t : Tasks ρ) : Progress := { t.build with channel := ⟨t.sent, true⟩ }

/-- Whether a schedule has lost nothing: the build goes on to where it would have come alone, and
the collector has taken the messages that are not waiting. -/
structure Keeps (plan : Plan) (runner : Runner ρ) (quiet : Bool) (first t : Tasks ρ) : Prop where
  watched : t.build.channel.watched = true
  run : plan.run runner t.tools t.unread = plan.run runner first.tools first.unread
  collected : ∃ received, t.sent = received ++ t.build.channel.waiting ∧
    (t.panes, t.desk) = received.foldl (collect quiet) (first.panes, first.desk)

theorem keeps_start (source : String) (r : ρ) (d : Desk) :
    Keeps plan runner quiet (start source r d) (start source r d) :=
  ⟨rfl, rfl, [], rfl, rfl⟩

variable {first t : Tasks ρ}

theorem Keeps.goOn (h : Keeps plan runner quiet first t) :
    Keeps plan runner quiet first (t.goOn plan runner) := by
  obtain ⟨⟨phase, files, c⟩, r, sent, panes, desk⟩ := t
  obtain ⟨phase', files', r', events, hstep⟩ := exists_buildStep plan runner phase files r
  obtain ⟨received, hsent, hcollected⟩ := h.collected
  have hwaiting : (c.sendAll events).waiting = c.waiting ++ events :=
    Channel.waiting_sendAll h.watched events
  have hgoOn : Tasks.goOn plan runner ⟨⟨phase, files, c⟩, r, sent, panes, desk⟩ =
      ⟨⟨phase', files', c.sendAll events⟩, r', sent ++ events, panes, desk⟩ := by
    simp only [Tasks.goOn, hstep, hwaiting, List.drop_left]
  rw [hgoOn]
  refine ⟨?_, ?_, received, ?_, hcollected⟩
  · exact (Channel.watched_sendAll c events).trans h.watched
  · -- The same step leads on from the build that nobody listens to.
    have hunread := run_buildStep plan runner ⟨phase, files, ⟨sent, true⟩⟩ r
    have hall : (Channel.mk sent true).sendAll events = ⟨sent ++ events, true⟩ := by
      have hwatched : (Channel.mk sent true).watched = true := rfl
      rw [Channel.mk.injEq, Channel.waiting_sendAll hwatched, Channel.watched_sendAll]
      exact ⟨rfl, rfl⟩
    rw [hstep, hall] at hunread
    exact hunread.trans h.run
  · have hbefore : sent = received ++ c.waiting := hsent
    show sent ++ events = received ++ (c.sendAll events).waiting
    rw [hwaiting, hbefore, List.append_assoc]

theorem Keeps.collectNext (h : Keeps plan runner quiet first t) :
    Keeps plan runner quiet first (t.collectNext quiet) := by
  obtain ⟨⟨phase, files, ⟨waiting, watched⟩⟩, r, sent, panes, desk⟩ := t
  obtain ⟨received, hsent, hcollected⟩ := h.collected
  cases waiting with
  | nil => exact h
  | cons event rest =>
    refine ⟨h.watched, h.run, received ++ [event], ?_, ?_⟩
    · show sent = received ++ [event] ++ rest
      rw [List.append_assoc]
      exact hsent
    · rw [List.foldl_append, ← hcollected]
      rfl

theorem keeps_play (h : Keeps plan runner quiet first t) (schedule : List Task) :
    Keeps plan runner quiet first (play plan runner quiet t schedule) := by
  induction schedule generalizing t with
  | nil => exact h
  | cons task rest ih =>
    cases task with
    | build => exact ih h.goOn
    | collector => exact ih h.collectNext

/-- Where both tasks have ended, the build has come to what it comes to alone, and the collector has
received everything that was sent. -/
theorem Keeps.of_isOver (h : Keeps plan runner quiet first t)
    {outcome : Except BuildError Outcome} (hover : t.IsOver outcome) :
    plan.run runner first.tools first.unread = (outcome, t.unread, t.tools) ∧
      (t.panes, t.desk) = t.sent.foldl (collect quiet) (first.panes, first.desk) := by
  obtain ⟨received, hsent, hcollected⟩ := h.collected
  obtain ⟨⟨phase, files, c⟩, r, sent, panes, desk⟩ := t
  obtain rfl : phase = .ended outcome := hover.ended
  obtain ⟨-, hwaiting⟩ := hover
  constructor
  · rw [← h.run]
    exact Plan.run_ended ..
  · rw [hcollected, hsent, hwaiting, List.append_nil]

/-- A build alone comes to what it comes to among the turns of the collector, and the collector has
received all that was sent. -/
theorem of_isOver {source : String} {d : Desk} {r : ρ} {schedule : List Task}
    {outcome : Except BuildError Outcome} {t : Tasks ρ}
    (ht : t = play plan runner quiet (start source r d) schedule) (hover : t.IsOver outcome) :
    plan.run runner r (.start source d.files {}) = (outcome, t.unread, t.tools) ∧
      (t.panes, t.desk) = t.sent.foldl (collect quiet) ({}, d) := by
  subst ht
  exact (keeps_play (keeps_start source r d) schedule).of_isOver hover

/-! ### Both tasks end -/

section Ending

variable (plan : Plan) (runner : Runner ρ) (quiet : Bool)

theorem play_append (t : Tasks ρ) (front back : List Task) :
    play plan runner quiet t (front ++ back) =
      play plan runner quiet (play plan runner quiet t front) back :=
  List.foldl_append

theorem exists_ended (t : Tasks ρ) :
    ∃ schedule outcome, (play plan runner quiet t schedule).build.phase = .ended outcome := by
  induction hweight : t.build.phase.weight using Nat.strongRecOn generalizing t with
  | ind weight ih =>
    cases hphase : t.build.phase with
    | ended outcome => exact ⟨[], outcome, hphase⟩
    | opening | between | waiting =>
      have hless : (t.goOn plan runner).build.phase.weight < weight := by
        rw [← hweight]
        exact weight_buildStep_lt plan runner (by simp [hphase, Phase.weight]) t.tools
      obtain ⟨rest, outcome, hrest⟩ := ih _ hless (t.goOn plan runner) rfl
      exact ⟨.build :: rest, outcome, hrest⟩

theorem exists_received {t : Tasks ρ} {outcome : Except BuildError Outcome}
    (h : t.build.phase = .ended outcome) :
    ∃ schedule, (play plan runner quiet t schedule).IsOver outcome := by
  obtain ⟨⟨phase, files, ⟨waiting, watched⟩⟩, r, sent, panes, desk⟩ := t
  induction waiting generalizing panes desk with
  | nil => exact ⟨[], h, rfl⟩
  | cons event rest ih =>
    obtain ⟨schedule, hschedule⟩ := ih (collect quiet (panes, desk) event).1
      (collect quiet (panes, desk) event).2 h
    exact ⟨.collector :: schedule, hschedule⟩

theorem exists_isOver (t : Tasks ρ) :
    ∃ schedule outcome, (play plan runner quiet t schedule).IsOver outcome := by
  obtain ⟨first, outcome, hended⟩ := exists_ended plan runner quiet t
  obtain ⟨later, hover⟩ := exists_received plan runner quiet hended
  refine ⟨first ++ later, outcome, ?_⟩
  rwa [play_append]

end Ending

end Tasks

end SnippetLens.Cli
