import SnippetLens.Build.Explorer
import SnippetLens.Proofs.Build.Run

/-!
One build at a time.

Clients may ask an explorer for a build at any time, also while the tool of a running build is at
work. Each request gets a ticket, at once if it is refused, and when its build returns otherwise. A
schedule says in which order the requests come in and the running build goes on.

Whatever the schedule is, at most one ticket is open, and a refused request adds its ticket and
nothing else. So a schedule leads to the same explorer, files, calls and other tickets without its
refused requests. What is left of it are builds that run one after the other, each by itself from
what the one before it left: `finish` lets a running build run to its end, and no step of a schedule
changes what that leads to.
-/

namespace SnippetLens.Build

open Files

variable {ρ : Type}

/-! ### Tickets -/

/-- What a client knows of its request: that its build is running, or what was returned and what
was sent to its channel. -/
inductive Ticket where
  | running
  | returned (result : Except BuildError Outcome) (channel : Channel)

namespace Ticket

def isRunning : Ticket → Bool
  | running => true
  | returned .. => false

def isRefused : Ticket → Bool
  | returned (.error .inProgress) _ => true
  | _ => false

def close (result : Except BuildError Outcome) (channel : Channel) : Ticket → Ticket
  | running => returned result channel
  | returned result channel => returned result channel

@[simp] theorem isRunning_running : running.isRunning = true := rfl

@[simp] theorem isRunning_returned (result : Except BuildError Outcome) (channel : Channel) :
    (returned result channel).isRunning = false := rfl

@[simp] theorem isRefused_running : running.isRefused = false := rfl

@[simp] theorem isRefused_inProgress (channel : Channel) :
    (returned (.error .inProgress) channel).isRefused = true := rfl

@[simp] theorem isRunning_close (result : Except BuildError Outcome) (channel : Channel)
    (ticket : Ticket) : (ticket.close result channel).isRunning = false := by
  cases ticket <;> rfl

/-- Closing a ticket refuses nothing, unless the build itself says so. -/
theorem isRefused_close {result : Except BuildError Outcome} (h : result ≠ .error .inProgress)
    (channel : Channel) (ticket : Ticket) :
    (ticket.close result channel).isRefused = ticket.isRefused := by
  cases ticket with
  | returned => rfl
  | running =>
    show (returned result channel).isRefused = false
    unfold isRefused
    split
    · simp_all
    · rfl

end Ticket

/-! ### An explorer among its clients -/

/-- An explorer, the calls so far and the state of the runner, and the tickets in the order of the
requests. -/
structure Traffic (ρ : Type) where
  explorer : Explorer
  tools : List Call × ρ
  tickets : List Ticket

/-- What happens next. -/
inductive Action where
  | request (source : String) (channel : Channel)
  /-- The running build goes on: it does its own work, its tool answers, or it returns. -/
  | proceed

def Action.client? : Action → Option (String × Channel)
  | .request source channel => some (source, channel)
  | .proceed => none

namespace Traffic

def start (files : FileTree) (r : ρ) : Traffic ρ := ⟨.idle files, ([], r), []⟩

def isBusy (t : Traffic ρ) : Bool :=
  match t.explorer with
  | .idle _ => false
  | .busy _ => true

def request (t : Traffic ρ) (source : String) (channel : Channel) : Traffic ρ :=
  match t.explorer.request source channel with
  | .ok explorer => { t with explorer, tickets := t.tickets ++ [.running] }
  | .error e => { t with tickets := t.tickets ++ [.returned (.error e) channel] }

def proceed (plan : Plan) (runner : Runner ρ) (t : Traffic ρ) : Traffic ρ :=
  match t.explorer with
  | .idle _ => t
  | .busy build =>
    match build.phase with
    | .waiting _ command _ =>
      let (result, left, tools) := runner.recording.run t.tools command plan.scratch build.files
      { t with explorer := t.explorer.answer plan result left, tools }
    | .ended result =>
      { t with
        explorer := t.explorer.step plan
        tickets := t.tickets.map (Ticket.close result build.channel) }
    | .opening _ | .between _ => { t with explorer := t.explorer.step plan }

def act (plan : Plan) (runner : Runner ρ) (t : Traffic ρ) : Action → Traffic ρ
  | .request source channel => t.request source channel
  | .proceed => t.proceed plan runner

def play (plan : Plan) (runner : Runner ρ) (t : Traffic ρ) (schedule : List Action) : Traffic ρ :=
  schedule.foldl (act plan runner) t

def finish (plan : Plan) (runner : Runner ρ) (t : Traffic ρ) : Traffic ρ :=
  match t.explorer with
  | .idle _ => t
  | .busy build =>
    let (result, last, tools) := plan.run runner.recording t.tools build
    ⟨.idle last.files, tools, t.tickets.map (Ticket.close result last.channel)⟩

/-- The traffic after a client asked and its build, if it was taken, ran to its end. -/
def serve (plan : Plan) (runner : Runner ρ) (t : Traffic ρ) (client : String × Channel) :
    Traffic ρ :=
  (t.request client.1 client.2).finish plan runner

def withoutRefused (t : Traffic ρ) : Traffic ρ :=
  { t with tickets := t.tickets.filter fun ticket => !ticket.isRefused }

def accepted (plan : Plan) (runner : Runner ρ) : Traffic ρ → List Action → List Action
  | _, [] => []
  | t, .proceed :: rest => .proceed :: accepted plan runner (t.proceed plan runner) rest
  | t, .request source channel :: rest =>
    let later := accepted plan runner (t.request source channel) rest
    if t.isBusy then later else .request source channel :: later

end Traffic

/-! ### No build is told that it is in progress -/

namespace Plan

variable {plan : Plan}

theorem setUp_ne_inProgress (source : String) (files left : FileTree) :
    plan.setUp source files ≠ (.error .inProgress, left) := by
  unfold setUp
  split
  · split
    · simp
    · split <;> simp
  · simp

theorem advance_ne_inProgress {b : Progress} (h : b.phase ≠ .ended (.error .inProgress)) :
    (plan.advance b).phase ≠ .ended (.error .inProgress) := by
  unfold advance
  split
  · rename_i source hphase
    split
    · rename_i e left hsetUp
      intro hended
      obtain rfl : e = .inProgress := by simpa using hended
      exact setUp_ne_inProgress source b.files left hsetUp
    · simp
  · simp
  · simp only
    split <;> simp
  · exact h
  · exact h

end Plan

namespace Traffic

variable (plan : Plan) (runner : Runner ρ)

/-! ### The steps, by where the explorer stands -/

section Steps

variable (files : FileTree) (build : Progress) (tools : List Call × ρ) (tickets : List Ticket)

@[simp] theorem isBusy_idle : isBusy ⟨.idle files, tools, tickets⟩ = false := rfl

@[simp] theorem isBusy_busy : isBusy ⟨.busy build, tools, tickets⟩ = true := rfl

@[simp] theorem request_idle (source : String) (channel : Channel) :
    request ⟨.idle files, tools, tickets⟩ source channel =
      ⟨.busy (.start source files channel), tools, tickets ++ [.running]⟩ := rfl

@[simp] theorem request_busy (source : String) (channel : Channel) :
    request ⟨.busy build, tools, tickets⟩ source channel =
      ⟨.busy build, tools, tickets ++ [.returned (.error .inProgress) channel]⟩ := rfl

end Steps

/-- A step of a running build either goes on with it, towards the same end, or returns it and closes
its ticket. -/
theorem proceed_busy (build : Progress) (tools : List Call × ρ) :
    (∃ result, build.phase = .ended result ∧
      ∀ tickets, proceed plan runner ⟨.busy build, tools, tickets⟩ =
        ⟨.idle build.files, tools, tickets.map (Ticket.close result build.channel)⟩) ∨
    ∃ build' tools', build'.phase.weight < build.phase.weight ∧
      (build.phase ≠ .ended (.error .inProgress) → build'.phase ≠ .ended (.error .inProgress)) ∧
      plan.run runner.recording tools' build' = plan.run runner.recording tools build ∧
      ∀ tickets, proceed plan runner ⟨.busy build, tools, tickets⟩ =
        ⟨.busy build', tools', tickets⟩ := by
  obtain ⟨phase, files, c⟩ := build
  cases phase with
  | ended result => exact .inl ⟨result, rfl, fun _ => rfl⟩
  | waiting stage command rest =>
    obtain ⟨result, left, tools', hrun⟩ : ∃ result left tools',
        runner.recording.run tools command plan.scratch files = (result, left, tools') :=
      ⟨_, _, _, rfl⟩
    refine .inr ⟨plan.answer ⟨.waiting stage command rest, files, c⟩ result left, tools',
      plan.weight_answer_lt rfl result left, fun _ => ?_, ?_, fun tickets => ?_⟩
    · rw [Plan.answer_waiting]
      cases result.succeeded <;> simp
    · simp only [Plan.run_waiting, hrun]
    · simp only [proceed, hrun, Explorer.answer]
  | opening source =>
    exact .inr ⟨plan.advance ⟨.opening source, files, c⟩, tools,
      plan.weight_advance_lt (by simp [Phase.weight]) (by simp), Plan.advance_ne_inProgress,
      (plan.run_opening runner.recording tools files c source).symm, fun _ => rfl⟩
  | between rest =>
    exact .inr ⟨plan.advance ⟨.between rest, files, c⟩, tools,
      plan.weight_advance_lt (by simp [Phase.weight]) (by simp), Plan.advance_ne_inProgress,
      (plan.run_between runner.recording tools files c rest).symm, fun _ => rfl⟩

/-- A step of the running build does not change where it leads to. -/
theorem finish_proceed (t : Traffic ρ) :
    (t.proceed plan runner).finish plan runner = t.finish plan runner := by
  obtain ⟨explorer, tools, tickets⟩ := t
  cases explorer with
  | idle files => rfl
  | busy build =>
    obtain ⟨result, hphase, hproceed⟩ | ⟨build', tools', -, -, hrun, hproceed⟩ :=
      proceed_busy plan runner build tools
    · obtain ⟨phase, files, c⟩ := build
      obtain rfl : phase = .ended result := hphase
      rw [hproceed]
      simp only [finish, Plan.run_ended]
    · rw [hproceed]
      simp only [finish, hrun]

/-! ### Tickets and the running build -/

/-- Whether the tickets fit the explorer: the one that is open is that of the running build, and
that build does not end by being refused. -/
structure Sound (t : Traffic ρ) : Prop where
  open_ticket : t.tickets.countP Ticket.isRunning = if t.isBusy then 1 else 0
  ending : ∀ build, t.explorer = .busy build → build.phase ≠ .ended (.error .inProgress)

theorem sound_start (files : FileTree) (r : ρ) : Sound (start files r) := ⟨rfl, by simp [start]⟩

theorem Sound.any_isRunning {t : Traffic ρ} (h : Sound t) :
    t.tickets.any Ticket.isRunning = t.isBusy := by
  have hopen := h.open_ticket
  cases hbusy : t.isBusy with
  | true =>
    rw [hbusy, if_pos rfl] at hopen
    exact List.any_eq_true.2 (List.countP_pos_iff.1 (by omega))
  | false =>
    rw [hbusy, if_neg (by decide)] at hopen
    simpa using List.countP_eq_zero.1 hopen

theorem Sound.request {t : Traffic ρ} (h : Sound t) (source : String) (channel : Channel) :
    Sound (t.request source channel) := by
  obtain ⟨explorer, tools, tickets⟩ := t
  cases explorer with
  | idle files =>
    refine ⟨?_, ?_⟩
    · have hnone : tickets.countP Ticket.isRunning = 0 := h.open_ticket
      simp [hnone]
    · rintro build hbuild hphase
      cases hbuild
      cases hphase
  | busy build =>
    have hone : tickets.countP Ticket.isRunning = 1 := h.open_ticket
    exact ⟨by simp [hone], h.ending⟩

theorem Sound.proceed {t : Traffic ρ} (h : Sound t) : Sound (t.proceed plan runner) := by
  obtain ⟨explorer, tools, tickets⟩ := t
  cases explorer with
  | idle files => exact h
  | busy build =>
    obtain ⟨result, -, hproceed⟩ | ⟨build', tools', -, hending, -, hproceed⟩ :=
      proceed_busy plan runner build tools
    · rw [hproceed]
      refine ⟨?_, by simp⟩
      simp [List.countP_map, Function.comp_def]
    · rw [hproceed]
      refine ⟨h.open_ticket, ?_⟩
      rintro _ ⟨⟩
      exact hending (h.ending build rfl)

/-! ### Without the refused requests -/

theorem withoutRefused_proceed {t : Traffic ρ} (h : Sound t) :
    (t.proceed plan runner).withoutRefused = t.withoutRefused.proceed plan runner := by
  obtain ⟨explorer, tools, tickets⟩ := t
  cases explorer with
  | idle files => rfl
  | busy build =>
    obtain ⟨result, hphase, hproceed⟩ | ⟨build', tools', -, -, -, hproceed⟩ :=
      proceed_busy plan runner build tools
    · have hresult : result ≠ .error .inProgress := by
        rintro rfl
        exact h.ending build rfl hphase
      simp only [withoutRefused, hproceed, List.filter_map, Function.comp_def,
        Ticket.isRefused_close hresult]
    · simp only [withoutRefused, hproceed]

theorem withoutRefused_request (t : Traffic ρ) (source : String) (channel : Channel) :
    (t.request source channel).withoutRefused =
      if t.isBusy then t.withoutRefused else t.withoutRefused.request source channel := by
  obtain ⟨explorer, tools, tickets⟩ := t
  cases explorer with
  | idle files => simp [withoutRefused]
  | busy build => simp [withoutRefused]

/-- A schedule leads to the same without its refused requests, but for their tickets. -/
theorem play_accepted {t : Traffic ρ} (h : Sound t) (schedule : List Action) :
    play plan runner t.withoutRefused (accepted plan runner t schedule) =
      (play plan runner t schedule).withoutRefused := by
  induction schedule generalizing t with
  | nil => rfl
  | cons action rest ih =>
    cases action with
    | proceed =>
      have hrest := ih (h.proceed plan runner)
      rwa [withoutRefused_proceed plan runner h] at hrest
    | request source channel =>
      have hrest := ih (h.request source channel)
      rw [withoutRefused_request] at hrest
      simp only [accepted]
      split
      · rename_i hbusy
        rwa [if_pos hbusy] at hrest
      · rename_i hidle
        rwa [if_neg hidle] at hrest

/-- Where a schedule leads to, its builds have run one after the other. -/
theorem finish_play {t : Traffic ρ} (h : Sound t) (schedule : List Action) :
    (play plan runner t schedule).withoutRefused.finish plan runner =
      ((accepted plan runner t schedule).filterMap Action.client?).foldl (serve plan runner)
        (t.withoutRefused.finish plan runner) := by
  induction schedule generalizing t with
  | nil => rfl
  | cons action rest ih =>
    cases action with
    | proceed =>
      have hrest := ih (h.proceed plan runner)
      rwa [withoutRefused_proceed plan runner h, finish_proceed] at hrest
    | request source channel =>
      have hrest := ih (h.request source channel)
      rw [withoutRefused_request] at hrest
      obtain ⟨explorer, tools, tickets⟩ := t
      cases explorer with
      | idle files => exact hrest
      | busy build => exact hrest

/-! ### Running builds return -/

def weight (t : Traffic ρ) : Nat :=
  match t.explorer with
  | .idle _ => 0
  | .busy build => build.phase.weight + 1

theorem weight_proceed_lt {t : Traffic ρ} (h : t.isBusy = true) :
    (t.proceed plan runner).weight < t.weight := by
  obtain ⟨explorer, tools, tickets⟩ := t
  cases explorer with
  | idle files => cases h
  | busy build =>
    obtain ⟨result, -, hproceed⟩ | ⟨build', tools', hweight, -, -, hproceed⟩ :=
      proceed_busy plan runner build tools
    · rw [hproceed]
      simp [weight]
    · rw [hproceed]
      simpa [weight] using hweight

theorem weight_request_of_busy {t : Traffic ρ} (h : t.isBusy = true) (source : String)
    (channel : Channel) : (t.request source channel).weight = t.weight := by
  obtain ⟨explorer, tools, tickets⟩ := t
  cases explorer with
  | idle files => cases h
  | busy build => rfl

/-- Whatever is asked in between, a running build returns after finitely many of its steps. -/
theorem exists_returned (t : Traffic ρ) (schedule : List Action)
    (h : t.weight ≤ schedule.countP (·.client?.isNone)) :
    ∃ before, before <+: schedule ∧ (play plan runner t before).isBusy = false := by
  induction schedule generalizing t with
  | nil =>
    refine ⟨[], List.prefix_rfl, ?_⟩
    obtain ⟨explorer, tools, tickets⟩ := t
    cases explorer with
    | idle files => rfl
    | busy build => simp [weight] at h
  | cons action rest ih =>
    cases hbusy : t.isBusy with
    | false => exact ⟨[], List.nil_prefix, hbusy⟩
    | true =>
      have hrest : (act plan runner t action).weight ≤ rest.countP (·.client?.isNone) := by
        cases action with
        | proceed =>
          have hless : (t.proceed plan runner).weight < t.weight :=
            weight_proceed_lt plan runner hbusy
          have hcount : t.weight ≤ rest.countP (·.client?.isNone) + 1 := by
            simpa [Action.client?] using h
          exact Nat.le_of_lt_succ (Nat.lt_of_lt_of_le hless hcount)
        | request source channel =>
          have hsame : (t.request source channel).weight = t.weight :=
            weight_request_of_busy hbusy source channel
          have hcount : t.weight ≤ rest.countP (·.client?.isNone) := by
            simpa [Action.client?] using h
          exact hsame.symm ▸ hcount
      obtain ⟨before, hbefore, hreturned⟩ := ih _ hrest
      exact ⟨action :: before, (List.prefix_cons_inj action).2 hbefore, hreturned⟩

/-! ### Single flight -/

theorem sound_play {t : Traffic ρ} (h : Sound t) (schedule : List Action) :
    Sound (play plan runner t schedule) := by
  induction schedule generalizing t with
  | nil => exact h
  | cons action rest ih =>
    cases action with
    | proceed => exact ih (h.proceed plan runner)
    | request source channel => exact ih (h.request source channel)

/-- Whatever the clients ask and when, one build is running at most. A request that comes in
meanwhile is refused and does nothing else, and any other one is taken. A schedule leads to the
same without the refused requests, but for their tickets; and its builds, the running one at its
end, return and leave what they do one after the other, each by itself. -/
theorem play_singleFlight (plan : Plan) (runner : Runner ρ) (r : ρ) (files : FileTree)
    (schedule : List Action) :
    let t := play plan runner (start files r) schedule
    let taken := accepted plan runner (start files r) schedule
    t.tickets.countP Ticket.isRunning = (if t.isBusy then 1 else 0) ∧
    (∀ source channel, t.request source channel =
      if t.tickets.any Ticket.isRunning then
        { t with tickets := t.tickets ++ [.returned (.error .inProgress) channel] }
      else
        { t with
          explorer := .busy (.start source t.explorer.files channel)
          tickets := t.tickets ++ [.running] }) ∧
    play plan runner (start files r) taken = t.withoutRefused ∧
    t.withoutRefused.finish plan runner =
      (taken.filterMap Action.client?).foldl (serve plan runner) (start files r) := by
  intro t taken
  have hsound : Sound t := sound_play plan runner (sound_start files r) schedule
  refine ⟨hsound.open_ticket, fun source channel => ?_,
    play_accepted plan runner (sound_start files r) schedule,
    finish_play plan runner (sound_start files r) schedule⟩
  rw [hsound.any_isRunning]
  obtain ⟨explorer, tools, tickets⟩ := t
  cases explorer with
  | idle files => rfl
  | busy build => rfl

end Traffic

end SnippetLens.Build
