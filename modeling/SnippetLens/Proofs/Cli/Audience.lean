import SnippetLens.Proofs.Cli.Turns

/-!
A build whose watcher goes away.

Whoever watches a build receives its messages in between, and may leave at any time. The build does
not notice: no step of it looks at the channel, so the steps are the same whether their messages
wait, were received, or are dropped. What has been received at any time is therefore the beginning
of what a watcher who stays receives in the end.

A step sends one message at most, so that who leaves between two steps can leave between any two
messages.
-/

namespace SnippetLens.Cli

open Files Build

variable {ρ : Type}

/-! ### Watching -/

/-- A build with the calls that it made, and what its watcher has received. -/
structure Watching (ρ : Type) where
  build : Progress
  tools : List Call × ρ
  received : List Event := []

inductive Move where
  /-- The build goes on by a step, or its tool answers. -/
  | build
  | receive
  /-- Nothing is received any more. -/
  | leave
  deriving DecidableEq

namespace Watching

def start (source : String) (files : FileTree) (r : ρ) : Watching ρ where
  build := .start source files {}
  tools := ([], r)

def move (plan : Plan) (runner : Runner ρ) (w : Watching ρ) : Move → Watching ρ
  | .build =>
    let (build, tools) := buildStep plan runner.recording w.build w.tools
    { w with build, tools }
  | .receive =>
    match w.build.channel.receive with
    | (none, _) => w
    | (some event, channel) =>
      { w with build := { w.build with channel }, received := w.received ++ [event] }
  | .leave => { w with build := { w.build with channel := w.build.channel.close } }

def play (plan : Plan) (runner : Runner ρ) (w : Watching ρ) (moves : List Move) : Watching ρ :=
  moves.foldl (move plan runner) w

end Watching

/-! ### Runs whose messages go anywhere -/

theorem sendAll_of_not_watched {c : Channel} (h : c.watched = false) (events : List Event) :
    c.sendAll events = c := by
  induction events with
  | nil => rfl
  | cons event events ih =>
    have hsend : c.send event = c := by simp [Channel.send, h]
    rw [Channel.sendAll_cons, hsend, ih]

/-- A run sends the same whatever becomes of its messages, and it does the same otherwise. -/
theorem exists_run (plan : Plan) (runner : Runner ρ) (phase : Phase) (files : FileTree) (r : ρ) :
    ∃ result phase' files' events r', ∀ c, plan.run runner r ⟨phase, files, c⟩ =
      (result, ⟨phase', files', c.sendAll events⟩, r') := by
  induction hweight : phase.weight using Nat.strongRecOn generalizing phase files r with
  | ind weight ih =>
    cases hphase : phase with
    | ended result => exact ⟨result, _, files, [], r, fun c => Plan.run_ended ..⟩
    | opening | between | waiting =>
      rw [← hphase]
      obtain ⟨phase', files', r', events, hstep⟩ := exists_buildStep plan runner phase files r
      have hless : phase'.weight < weight := by
        have h := weight_buildStep_lt plan runner (b := ⟨phase, files, {}⟩)
          (by simp [hphase, Phase.weight]) r
        rw [hstep] at h
        exact hweight ▸ h
      obtain ⟨result, last, left, more, r'', hrest⟩ := ih _ hless phase' files' r' rfl
      refine ⟨result, last, left, events ++ more, r'', fun c => ?_⟩
      rw [← run_buildStep, hstep, hrest, Channel.sendAll_append]

namespace Watching

variable {plan : Plan} {runner : Runner ρ}

/-! ### What every move keeps -/

/-- Whether a build goes on to where it would have come alone, after all that it has sent; and what
its watcher has received is the beginning of that, of which the rest is waiting as long as it is
watched. -/
structure Follows (plan : Plan) (runner : Runner ρ) (first w : Watching ρ) (sent : List Event) :
    Prop where
  run : plan.run runner.recording w.tools { w.build with channel := ⟨sent, true⟩ } =
    plan.run runner.recording first.tools first.build
  received : w.received <+: sent
  watched : w.build.channel.watched = true → sent = w.received ++ w.build.channel.waiting
  unwatched : w.build.channel.watched = false → w.build.channel.waiting = []

theorem follows_start (source : String) (files : FileTree) (r : ρ) :
    Follows plan runner (start source files r) (start source files r) [] where
  run := rfl
  received := List.nil_prefix
  watched _ := rfl
  unwatched _ := rfl

variable {first w : Watching ρ} {sent : List Event}

theorem Follows.build (h : Follows plan runner first w sent) :
    ∃ more, Follows plan runner first (w.move plan runner .build) (sent ++ more) := by
  obtain ⟨⟨phase, files, c⟩, tools, received⟩ := w
  obtain ⟨phase', files', tools', events, hstep⟩ :=
    exists_buildStep plan runner.recording phase files tools
  have hmove : Watching.move plan runner ⟨⟨phase, files, c⟩, tools, received⟩ .build =
      ⟨⟨phase', files', c.sendAll events⟩, tools', received⟩ := by
    simp only [Watching.move, hstep]
  rw [hmove]
  refine ⟨events, ?_, h.received.trans (List.prefix_append sent events), ?_, ?_⟩
  · -- The same step leads on from the build whose messages all wait.
    have hopen := run_buildStep plan runner.recording ⟨phase, files, ⟨sent, true⟩⟩ tools
    have hall : (Channel.mk sent true).sendAll events = ⟨sent ++ events, true⟩ := by
      have hwatched : (Channel.mk sent true).watched = true := rfl
      rw [Channel.mk.injEq, Channel.waiting_sendAll hwatched, Channel.watched_sendAll]
      exact ⟨rfl, rfl⟩
    rw [hstep, hall] at hopen
    exact hopen.trans h.run
  · intro hwatched
    rw [Channel.watched_sendAll] at hwatched
    have hbefore : sent = received ++ c.waiting := h.watched hwatched
    show sent ++ events = received ++ (c.sendAll events).waiting
    rw [Channel.waiting_sendAll hwatched, hbefore, List.append_assoc]
  · intro hgone
    rw [Channel.watched_sendAll] at hgone
    show (c.sendAll events).waiting = []
    rw [sendAll_of_not_watched hgone]
    exact h.unwatched hgone

theorem Follows.receive (h : Follows plan runner first w sent) :
    Follows plan runner first (w.move plan runner .receive) sent := by
  obtain ⟨⟨phase, files, ⟨waiting, watched⟩⟩, tools, received⟩ := w
  cases waiting with
  | nil => exact h
  | cons event rest =>
    have hwatched : watched = true := by
      cases watched with
      | true => rfl
      | false => exact absurd (h.unwatched rfl) (List.cons_ne_nil event rest)
    have hsent : sent = received ++ event :: rest := h.watched hwatched
    have hreceived : sent = received ++ [event] ++ rest := by simp [hsent]
    refine ⟨h.run, ⟨rest, hreceived.symm⟩, fun _ => hreceived, fun hgone => ?_⟩
    rw [show watched = false from hgone] at hwatched
    cases hwatched

theorem Follows.leave (h : Follows plan runner first w sent) :
    Follows plan runner first (w.move plan runner .leave) sent where
  run := h.run
  received := h.received
  watched hwatched := by cases hwatched
  unwatched _ := rfl

theorem Follows.play (h : Follows plan runner first w sent) (moves : List Move) :
    ∃ more, Follows plan runner first (play plan runner w moves) (sent ++ more) := by
  induction moves generalizing w sent with
  | nil => exact ⟨[], by rwa [List.append_nil]⟩
  | cons m moves ih =>
    cases m with
    | build =>
      obtain ⟨events, hstep⟩ := h.build
      obtain ⟨more, hrest⟩ := ih hstep
      exact ⟨events ++ more, by rwa [← List.append_assoc]⟩
    | receive => exact ih h.receive
    | leave => exact ih h.leave

theorem exists_follows (plan : Plan) (runner : Runner ρ) (source : String) (files : FileTree)
    (r : ρ) (moves : List Move) :
    ∃ sent, Follows plan runner (start source files r)
      (Watching.play plan runner (start source files r) moves) sent :=
  (follows_start source files r).play moves

/-- However the build is watched, the rest of it leads to the same, and what was received is the
beginning of what is sent. -/
theorem Follows.rest (h : Follows plan runner first w sent) :
    let stayed := plan.run runner.recording first.tools first.build
    let left := plan.run runner.recording w.tools w.build
    left.1 = stayed.1 ∧ left.2.1.files = stayed.2.1.files ∧ left.2.2 = stayed.2.2 ∧
      sent <+: stayed.2.1.channel.waiting := by
  obtain ⟨⟨phase, files, c⟩, tools, received⟩ := w
  obtain ⟨result, phase', files', events, tools', hrun⟩ :=
    exists_run plan runner.recording phase files tools
  have hwatched : (Channel.mk sent true).watched := rfl
  rw [← h.run, hrun, hrun]
  refine ⟨rfl, rfl, rfl, ?_⟩
  show sent <+: ((Channel.mk sent true).sendAll events).waiting
  rw [Channel.waiting_sendAll hwatched]
  exact List.prefix_append sent events

/-! ### Leaving -/

theorem play_append (plan : Plan) (runner : Runner ρ) (w : Watching ρ) (front back : List Move) :
    play plan runner w (front ++ back) = play plan runner (play plan runner w front) back :=
  List.foldl_append

structure HasLeft (w : Watching ρ) : Prop where
  not_watched : w.build.channel.watched = false
  nothing : w.build.channel.waiting = []

theorem hasLeft_leave (w : Watching ρ) : HasLeft (w.move plan runner .leave) :=
  ⟨rfl, rfl⟩

theorem HasLeft.move {w : Watching ρ} (h : HasLeft w) (m : Move) :
    HasLeft (w.move plan runner m) ∧ (w.move plan runner m).received = w.received := by
  obtain ⟨⟨phase, files, ⟨waiting, watched⟩⟩, tools, received⟩ := w
  obtain rfl : watched = false := h.not_watched
  obtain rfl : waiting = [] := h.nothing
  cases m with
  | build =>
    obtain ⟨phase', files', tools', events, hstep⟩ :=
      exists_buildStep plan runner.recording phase files tools
    simp only [Watching.move, hstep, sendAll_of_not_watched, and_true]
    exact ⟨rfl, rfl⟩
  | receive => exact ⟨h, rfl⟩
  | leave => exact ⟨hasLeft_leave _, rfl⟩

theorem HasLeft.play {w : Watching ρ} (h : HasLeft w) (moves : List Move) :
    (play plan runner w moves).received = w.received := by
  induction moves generalizing w with
  | nil => rfl
  | cons m moves ih =>
    obtain ⟨hleft, hreceived⟩ : HasLeft (w.move plan runner m) ∧
        (w.move plan runner m).received = w.received := h.move m
    exact (ih hleft).trans hreceived

theorem watched_play {w : Watching ρ} {moves : List Move} (h : .leave ∉ moves)
    (hwatched : w.build.channel.watched = true) :
    (play plan runner w moves).build.channel.watched = true := by
  induction moves generalizing w with
  | nil => exact hwatched
  | cons m moves ih =>
    obtain ⟨hm, hmoves⟩ := List.ne_and_not_mem_of_not_mem_cons h
    obtain ⟨⟨phase, files, ⟨waiting, watched⟩⟩, tools, received⟩ := w
    refine ih hmoves ?_
    cases m with
    | build =>
      obtain ⟨phase', files', tools', events, hstep⟩ :=
        exists_buildStep plan runner.recording phase files tools
      simp only [Watching.move, hstep, Channel.watched_sendAll]
      exact hwatched
    | receive => cases waiting <;> exact hwatched
    | leave => exact absurd rfl hm

/-- A build comes to the same result, makes the same calls and leaves the same files, whenever its
watcher leaves. What was received by then is the beginning of what is received by a watcher who
stays. -/
theorem run_of_leave (plan : Plan) (runner : Runner ρ) (r : ρ) (source : String)
    (files : FileTree) :
    let stayed := plan.run runner.recording ([], r) (.start source files {})
    (∀ before after,
      let w := play plan runner (start source files r) (before ++ .leave :: after)
      let left := plan.run runner.recording w.tools w.build
      left.1 = stayed.1 ∧ left.2.1.files = stayed.2.1.files ∧ left.2.2 = stayed.2.2 ∧
        w.received = (play plan runner (start source files r) before).received ∧
        w.received <+: stayed.2.1.channel.waiting) ∧
    (∀ moves result, .leave ∉ moves →
      let w := play plan runner (start source files r) moves
      w.build.phase = .ended result → w.build.channel.waiting = [] →
        result = stayed.1 ∧ w.build.files = stayed.2.1.files ∧ w.tools = stayed.2.2 ∧
          w.received = stayed.2.1.channel.waiting) := by
  intro stayed
  constructor
  · intro before after w left
    obtain ⟨sent, h⟩ := exists_follows plan runner source files r (before ++ .leave :: after)
    obtain ⟨hresult, hfiles, htools, hsent⟩ := h.rest
    refine ⟨hresult, hfiles, htools, ?_, h.received.trans hsent⟩
    show (play plan runner (start source files r) (before ++ .leave :: after)).received = _
    rw [play_append]
    exact (hasLeft_leave (play plan runner (start source files r) before)).play after
  · intro moves result hmoves w hended hwaiting
    obtain ⟨sent, h⟩ := exists_follows plan runner source files r moves
    have hreceived : sent = w.received ++ w.build.channel.waiting :=
      h.watched (watched_play hmoves rfl)
    rw [hwaiting, List.append_nil] at hreceived
    have hrun : plan.run runner.recording w.tools ⟨w.build.phase, w.build.files, ⟨sent, true⟩⟩ =
        stayed := h.run
    rw [hended, Plan.run_ended] at hrun
    rw [← hrun]
    exact ⟨rfl, rfl, rfl, hreceived.symm⟩

end Watching

end SnippetLens.Cli
