import Mathlib.Data.List.TakeWhile
import Mathlib.Logic.Function.Basic
import SnippetLens.Proofs.Tool.Capture

/-!
Listening to both streams of a tool at once.

Each stream is read by calls, and a call reads into the buffer of its stream until it has read a
line feed or comes to the end of the stream. The calls on the two streams run together. The first
that comes back has its buffer written down; the other one is given up, which leaves in its buffer
what it has read. A stream is listened to until a call on it comes back without having read
anything.

The turns are arbitrary: what arrives when, and which call goes on when. Every run writes down what
some sequence of arrivals does, so that the lines of each stream are all there, each of them in one
piece. A line that a call leaves behind right before the end of its stream is written down by the
call after it, which reads nothing. However far a run has come, some turns end it.
-/

namespace SnippetLens.Tool

open Text

/-! ### Turns -/

structure Ear where
  /-- The chunks that have not arrived yet. -/
  coming : List (List UInt8)
  /-- The bytes that have arrived and were not read yet. -/
  arrived : List UInt8 := []
  /-- Whether the end of the stream has arrived. -/
  closed : Bool := false
  /-- How many bytes the call under way has read. -/
  count : Nat := 0
  /-- Whether the stream is still listened to. -/
  attended : Bool := true
  deriving DecidableEq, Repr

def Ear.arrive (e : Ear) : Ear :=
  match e.coming with
  | chunk :: coming => { e with coming, arrived := e.arrived ++ chunk }
  | [] => { e with closed := true }

/-- The call under way reads some of the bytes that have arrived, and leaves the rest. -/
def Ear.read (e : Ear) (bytes rest : List UInt8) : Ear :=
  { e with arrived := rest, count := e.count + bytes.length }

def Ear.restart (e : Ear) (attended : Bool) : Ear :=
  { e with count := 0, attended }

/-- Someone who listens to both streams of a tool. The buffers are those of the capture. -/
structure Listener where
  capture : Capture := {}
  ears : Stream → Ear

inductive Turn where
  /-- Something arrives on a stream. -/
  | arrival (stream : Stream)
  /-- The call on a stream goes on, if the stream is listened to. -/
  | call (stream : Stream)
  deriving DecidableEq, Repr

namespace Capture

def hold (c : Capture) (stream : Stream) (bytes : List UInt8) : Capture :=
  c.begin (bytes.reverse ++ c.begun stream) stream

end Capture

namespace Listener

def start (coming : Stream → List (List UInt8)) : Listener where
  ears stream := { coming := coming stream }

def read (l : Listener) (stream : Stream) (bytes rest : List UInt8) : Listener where
  capture := l.capture.hold stream bytes
  ears := Function.update l.ears stream ((l.ears stream).read bytes rest)

/-- The call on a stream comes back, and the other one is given up. -/
def comeBack (l : Listener) (stream : Stream) : Listener where
  capture := l.capture.writeDown stream
  ears other :=
    if other = stream then (l.ears stream).restart (0 < (l.ears stream).count)
    else (l.ears other).restart (l.ears other).attended

def call (l : Listener) (stream : Stream) : Listener :=
  let e := l.ears stream
  if e.attended then
    match e.arrived.dropWhile (· ≠ lineFeed) with
    | feed :: rest =>
      (l.read stream (e.arrived.takeWhile (· ≠ lineFeed) ++ [feed]) rest).comeBack stream
    | [] =>
      let l := l.read stream e.arrived []
      if e.closed then l.comeBack stream else l
  else l

def turn (l : Listener) : Turn → Listener
  | .arrival stream => { l with ears := Function.update l.ears stream (l.ears stream).arrive }
  | .call stream => l.call stream

def run (l : Listener) (turns : List Turn) : Listener :=
  turns.foldl turn l

def IsOver (l : Listener) : Prop :=
  ∀ stream, (l.ears stream).attended = false

end Listener

/-! ### What is read, as arrivals -/

namespace Capture

theorem hold_hold (c : Capture) (stream : Stream) (front back : List UInt8) :
    (c.hold stream front).hold stream back = c.hold stream (front ++ back) := by
  cases stream <;> simp [hold, begin, begun]

theorem receive_of_notMem (c : Capture) (stream : Stream) {bytes : List UInt8}
    (h : lineFeed ∉ bytes) : c.receive (.bytes stream bytes) = c.hold stream bytes := by
  induction bytes generalizing c with
  | nil => cases stream <;> rfl
  | cons b bytes ih =>
    obtain ⟨hb, hbytes⟩ := List.ne_and_not_mem_of_not_mem_cons h
    have hfirst : hear stream c b = c.hold stream [b] := hear_of_ne c stream hb.symm
    have hrest := ih (c.hold stream [b]) hbytes
    rw [receive] at hrest ⊢
    rw [List.foldl_cons, hfirst, hrest, hold_hold, List.singleton_append]

theorem receive_line (c : Capture) (stream : Stream) {line : List UInt8} (h : lineFeed ∉ line) :
    c.receive (.bytes stream (line ++ [lineFeed])) =
      (c.hold stream (line ++ [lineFeed])).writeDown stream := by
  have hline := receive_of_notMem c stream h
  rw [receive] at hline ⊢
  rw [List.foldl_append, hline, List.foldl_cons, List.foldl_nil, hear, if_pos rfl, ← hold_hold]
  rfl

theorem ofArrivals_append (front back : List Arrival) :
    ofArrivals (front ++ back) = back.foldl receive (ofArrivals front) :=
  List.foldl_append

end Capture

/-- What holds of an ear, after the arrivals that were read so far: they and what is left of the
stream are all that was said on it. -/
structure Ear.Follows (e : Ear) (stream : Stream) (log : List Arrival) (said : List UInt8) :
    Prop where
  all : heard stream log ++ e.arrived ++ e.coming.flatten = said
  closed : e.closed = true → e.coming = []
  ended : .ended stream ∈ log → Ends stream log ∧ e.closed = true ∧ e.arrived = []
  left : e.attended = false → .ended stream ∈ log

namespace Ear.Follows

variable {e : Ear} {stream : Stream} {log : List Arrival} {said : List UInt8}

theorem arrive (h : e.Follows stream log said) : e.arrive.Follows stream log said := by
  obtain ⟨hall, hclosed, hended, hleft⟩ := h
  unfold Ear.arrive
  split
  · rename_i chunk coming hcoming
    refine ⟨by simpa [hcoming] using hall, fun hc => ?_, fun hmem => ?_, hleft⟩
    · simp [hclosed hc] at hcoming
    · simp [hclosed (hended hmem).2.1] at hcoming
  · rename_i hcoming
    exact ⟨hall, fun _ => hcoming, fun hmem => ⟨(hended hmem).1, rfl, (hended hmem).2.2⟩, hleft⟩

theorem other (h : e.Follows stream log said) {more : List Arrival}
    (hheard : heard stream more = [])
    (hmore : .ended stream ∉ more) : e.Follows stream (log ++ more) said where
  all := by rw [heard_append, hheard, List.append_nil, h.all]
  closed := h.closed
  ended hmem := by
    obtain ⟨hends, hrest⟩ := h.ended ((List.mem_append.1 hmem).resolve_right hmore)
    exact ⟨hends.append hheard, hrest⟩
  left hattended := List.mem_append_left _ (h.left hattended)

theorem restart (h : e.Follows stream log said) {attended : Bool}
    (hattended : attended = false → .ended stream ∈ log) :
    (e.restart attended).Follows stream log said :=
  ⟨h.all, h.closed, h.ended, hattended⟩

theorem read (h : e.Follows stream log said) {bytes rest : List UInt8}
    (harrived : e.arrived = bytes ++ rest) (hopen : .ended stream ∉ log) :
    (e.read bytes rest).Follows stream (log ++ [.bytes stream bytes]) said where
  all := by
    rw [← h.all, harrived, heard_append]
    simp [heard, Ear.read]
  closed := h.closed
  ended hmem := by simp [hopen] at hmem
  left hattended := List.mem_append_left _ (h.left hattended)

/-- A call that comes to the end of the stream reads all that is left of it. -/
theorem finish (h : e.Follows stream log said) (hclosed : e.closed = true) :
    (e.read e.arrived []).Follows stream (log ++ [.bytes stream e.arrived, .ended stream])
      said where
  all := by
    rw [← h.all, heard_append]
    simp [heard, Ear.read]
  closed := h.closed
  ended _ := by
    refine ⟨?_, hclosed, rfl⟩
    -- The end may have been told before; then nothing has arrived since.
    by_cases hmem : .ended stream ∈ log
    · obtain ⟨hends, -, harrived⟩ := h.ended hmem
      exact hends.append (by simp [heard, harrived])
    · exact ends_append_of_notMem hmem (by simp [Ends, heard])
  left _ := by simp

end Ear.Follows

structure Ear.Stays (e e' : Ear) : Prop where
  closed : e.closed = true → e'.closed = true
  left : e.attended = false → e'.attended = false

theorem Ear.Stays.refl (e : Ear) : e.Stays e :=
  ⟨id, id⟩

theorem Ear.Stays.trans {e e' e'' : Ear} (h : e.Stays e') (h' : e'.Stays e'') : e.Stays e'' :=
  ⟨h'.closed ∘ h.closed, h'.left ∘ h.left⟩

theorem Ear.stays_arrive (e : Ear) : e.Stays e.arrive := by
  unfold Ear.arrive
  split <;> constructor <;> simp

namespace Listener

/-- What holds of a listener after the arrivals that it has read so far. -/
structure Follows (l : Listener) (log : List Arrival) (said : Stream → List UInt8) : Prop where
  capture : l.capture = Capture.ofArrivals log
  ears : ∀ stream, (l.ears stream).Follows stream log (said stream)

variable {l : Listener} {log : List Arrival} {said : Stream → List UInt8}

theorem Follows.start (coming : Stream → List (List UInt8)) :
    (Listener.start coming).Follows [] fun stream => (coming stream).flatten where
  capture := rfl
  ears stream := ⟨by simp [heard, Listener.start], nofun, nofun, nofun⟩

@[simp] theorem ears_read_self (l : Listener) (stream : Stream) (bytes rest : List UInt8) :
    (l.read stream bytes rest).ears stream = (l.ears stream).read bytes rest :=
  Function.update_self ..

theorem ears_read_of_ne (l : Listener) (bytes rest : List UInt8) {stream other : Stream}
    (h : other ≠ stream) : (l.read stream bytes rest).ears other = l.ears other :=
  Function.update_of_ne h ..

@[simp] theorem ears_comeBack_self (l : Listener) (stream : Stream) :
    (l.comeBack stream).ears stream = (l.ears stream).restart (0 < (l.ears stream).count) :=
  if_pos rfl

theorem ears_comeBack_of_ne (l : Listener) {stream other : Stream} (h : other ≠ stream) :
    (l.comeBack stream).ears other = (l.ears other).restart (l.ears other).attended :=
  if_neg h

theorem exists_of_dropWhile_eq_cons {bytes rest : List UInt8} {feed : UInt8}
    (h : bytes.dropWhile (· ≠ lineFeed) = feed :: rest) :
    feed = lineFeed ∧ bytes = bytes.takeWhile (· ≠ lineFeed) ++ [feed] ++ rest ∧
      lineFeed ∉ bytes.takeWhile (· ≠ lineFeed) := by
  refine ⟨?_, ?_, fun hmem => ?_⟩
  · have hfirst := List.head?_dropWhile_not (· ≠ lineFeed) bytes
    rw [h] at hfirst
    simpa using hfirst
  · have hall := List.takeWhile_append_dropWhile (p := (· ≠ lineFeed)) (l := bytes)
    rw [h] at hall
    simpa using hall.symm
  · simpa using List.mem_takeWhile_imp hmem

theorem notMem_of_dropWhile_eq_nil {bytes : List UInt8}
    (h : bytes.dropWhile (· ≠ lineFeed) = []) : lineFeed ∉ bytes := by
  intro hmem
  simpa using List.dropWhile_eq_nil_iff.1 h lineFeed hmem

theorem Follows.read_line (h : l.Follows log said) {stream : Stream} {line rest : List UInt8}
    (harrived : (l.ears stream).arrived = line ++ [lineFeed] ++ rest) (hline : lineFeed ∉ line) :
    ((l.read stream (line ++ [lineFeed]) rest).comeBack stream).Follows
      (log ++ [.bytes stream (line ++ [lineFeed])]) said where
  capture := by
    rw [Capture.ofArrivals_append, List.foldl_cons, List.foldl_nil, ← h.capture,
      Capture.receive_line _ _ hline]
    rfl
  ears other := by
    by_cases hother : other = stream
    · subst hother
      have hear := h.ears other
      have hopen : .ended other ∉ log := fun hmem => by
        simp [(hear.ended hmem).2.2] at harrived
      have hcount : 0 < ((l.ears other).read (line ++ [lineFeed]) rest).count := by
        simp only [Ear.read, List.length_append, List.length_singleton]
        omega
      rw [ears_comeBack_self, ears_read_self]
      exact (hear.read harrived hopen).restart (by simp [hcount])
    · have hnone : heard other [.bytes stream (line ++ [lineFeed])] = [] := by
        simp [heard, Ne.symm hother]
      have hfollows := (h.ears other).other hnone (by simp)
      rw [ears_comeBack_of_ne _ hother, ears_read_of_ne _ _ _ hother]
      exact hfollows.restart hfollows.left

theorem Follows.read_some (h : l.Follows log said) {stream : Stream}
    (hline : lineFeed ∉ (l.ears stream).arrived) (hclosed : (l.ears stream).closed = false) :
    (l.read stream (l.ears stream).arrived []).Follows
      (log ++ [.bytes stream (l.ears stream).arrived]) said where
  capture := by
    rw [Capture.ofArrivals_append, List.foldl_cons, List.foldl_nil, ← h.capture,
      Capture.receive_of_notMem _ _ hline]
    rfl
  ears other := by
    by_cases hother : other = stream
    · subst hother
      have hopen : .ended other ∉ log := fun hmem => by
        have hend := ((h.ears other).ended hmem).2.1
        simp [hclosed] at hend
      rw [ears_read_self]
      exact (h.ears other).read (List.append_nil _).symm hopen
    · have hnone : heard other [.bytes stream (l.ears stream).arrived] = [] := by
        simp [heard, Ne.symm hother]
      rw [ears_read_of_ne _ _ _ hother]
      exact (h.ears other).other hnone (by simp)

theorem Follows.read_end (h : l.Follows log said) {stream : Stream}
    (hline : lineFeed ∉ (l.ears stream).arrived) (hclosed : (l.ears stream).closed = true) :
    ((l.read stream (l.ears stream).arrived []).comeBack stream).Follows
      (log ++ [.bytes stream (l.ears stream).arrived, .ended stream]) said where
  capture := by
    rw [Capture.ofArrivals_append, List.foldl_cons, List.foldl_cons, List.foldl_nil, ← h.capture,
      Capture.receive_of_notMem _ _ hline]
    rfl
  ears other := by
    by_cases hother : other = stream
    · subst hother
      have hfollows := (h.ears other).finish hclosed
      rw [ears_comeBack_self, ears_read_self]
      exact hfollows.restart fun _ => by simp
    · have hnone : heard other [.bytes stream (l.ears stream).arrived, .ended stream] = [] := by
        simp [heard, Ne.symm hother]
      have hfollows := (h.ears other).other hnone (by simp [hother])
      rw [ears_comeBack_of_ne _ hother, ears_read_of_ne _ _ _ hother]
      exact hfollows.restart hfollows.left

theorem Follows.call (h : l.Follows log said) (stream : Stream) :
    ∃ more, (l.call stream).Follows (log ++ more) said := by
  unfold Listener.call
  dsimp only
  split
  · split
    · rename_i feed rest hdrop
      obtain ⟨rfl, harrived, hline⟩ := exists_of_dropWhile_eq_cons hdrop
      exact ⟨_, h.read_line harrived hline⟩
    · rename_i hdrop
      have hline := notMem_of_dropWhile_eq_nil hdrop
      by_cases hclosed : (l.ears stream).closed = true
      · exact ⟨_, by simpa [hclosed] using h.read_end hline hclosed⟩
      · exact ⟨_, by simpa [hclosed] using h.read_some hline (by simpa using hclosed)⟩
  · exact ⟨[], by rwa [List.append_nil]⟩

theorem Follows.turn (h : l.Follows log said) (t : Turn) :
    ∃ more, (l.turn t).Follows (log ++ more) said := by
  cases t with
  | arrival stream =>
    refine ⟨[], ⟨by rw [List.append_nil]; exact h.capture, fun other => ?_⟩⟩
    rw [List.append_nil]
    by_cases hother : other = stream
    · subst hother
      simpa [Listener.turn] using (h.ears other).arrive
    · simpa [Listener.turn, hother] using h.ears other
  | call stream => exact h.call stream

theorem Follows.run (h : l.Follows log said) (turns : List Turn) :
    ∃ more, (l.run turns).Follows (log ++ more) said := by
  induction turns generalizing l log with
  | nil => exact ⟨[], by rwa [List.append_nil]⟩
  | cons t turns ih =>
    obtain ⟨first, hfirst⟩ := h.turn t
    obtain ⟨rest, hrest⟩ := ih hfirst
    exact ⟨first ++ rest, by rwa [← List.append_assoc]⟩

/-! ### Every run can be ended -/

theorem run_append (l : Listener) (front back : List Turn) :
    l.run (front ++ back) = (l.run front).run back :=
  List.foldl_append

theorem stays_call (l : Listener) (stream other : Stream) :
    (l.ears other).Stays ((l.call stream).ears other) := by
  unfold call
  dsimp only
  by_cases hother : other = stream
  · subst hother
    split
    · rename_i hattended
      refine ⟨fun hclosed => ?_, fun hleft => by simp [hleft] at hattended⟩
      split <;> simp [hclosed, Ear.restart, Ear.read]
    · exact .refl _
  · have hread (bytes rest : List UInt8) :
        ((l.read stream bytes rest).ears other) = l.ears other := ears_read_of_ne _ _ _ hother
    have hback (l' : Listener) (h : l'.ears other = l.ears other) :
        (l.ears other).Stays ((l'.comeBack stream).ears other) := by
      rw [ears_comeBack_of_ne _ hother, h]
      exact ⟨id, id⟩
    split
    · split
      · exact hback _ (hread _ _)
      · split
        · exact hback _ (hread _ _)
        · rw [hread]
          exact .refl _
    · exact .refl _

theorem stays_turn (l : Listener) (t : Turn) (other : Stream) :
    (l.ears other).Stays ((l.turn t).ears other) := by
  cases t with
  | arrival stream =>
    by_cases hother : other = stream
    · subst hother
      simpa [turn] using Ear.stays_arrive (l.ears other)
    · simpa [turn, hother] using Ear.Stays.refl (l.ears other)
  | call stream => exact stays_call l stream other

theorem stays_run (l : Listener) (turns : List Turn) (other : Stream) :
    (l.ears other).Stays ((l.run turns).ears other) := by
  induction turns generalizing l with
  | nil => exact .refl _
  | cons t turns ih => exact (stays_turn l t other).trans (ih (l.turn t))

theorem exists_closed (l : Listener) (stream : Stream) :
    ∃ turns, ((l.run turns).ears stream).closed = true := by
  generalize hcoming : (l.ears stream).coming = coming
  induction coming generalizing l with
  | nil => exact ⟨[.arrival stream], by simp [run, turn, Ear.arrive, hcoming]⟩
  | cons chunk coming ih =>
    obtain ⟨turns, hturns⟩ :=
      ih (l.turn (.arrival stream)) (by simp [turn, Ear.arrive, hcoming])
    exact ⟨.arrival stream :: turns, hturns⟩

/-- The call that comes to the end of a stream leaves nothing to be read. -/
theorem ears_call_of_end {stream : Stream} (hattended : (l.ears stream).attended = true)
    (hclosed : (l.ears stream).closed = true) (hline : lineFeed ∉ (l.ears stream).arrived) :
    ((l.call stream).ears stream).arrived = [] ∧ ((l.call stream).ears stream).count = 0 ∧
      ((l.call stream).ears stream).attended =
        decide (0 < (l.ears stream).count + (l.ears stream).arrived.length) := by
  have hdrop : (l.ears stream).arrived.dropWhile (· ≠ lineFeed) = [] := by
    rw [List.dropWhile_eq_nil_iff]
    intro b hb
    simpa using ne_of_mem_of_not_mem hb hline
  simp only [call, hattended, hdrop, hclosed, if_true, ears_comeBack_self, ears_read_self]
  exact ⟨rfl, rfl, rfl⟩

theorem exists_left {stream : Stream} (hclosed : (l.ears stream).closed = true) :
    ∃ turns, ((l.run turns).ears stream).attended = false := by
  -- Each call takes a line from what has arrived, and the one behind the last line reads nothing.
  generalize hlength : (l.ears stream).arrived.length = length
  induction length using Nat.strongRecOn generalizing l with
  | ind length ih =>
    by_cases hattended : (l.ears stream).attended = true
    · have hcalled := (stays_call l stream stream).closed hclosed
      cases hdrop : (l.ears stream).arrived.dropWhile (· ≠ lineFeed) with
      | nil =>
        obtain ⟨harrived, hcount, -⟩ :=
          ears_call_of_end hattended hclosed (notMem_of_dropWhile_eq_nil hdrop)
        by_cases hagain : ((l.call stream).ears stream).attended = true
        · obtain ⟨-, -, hleft⟩ := ears_call_of_end hagain hcalled (by simp [harrived])
          rw [harrived, hcount] at hleft
          exact ⟨[.call stream, .call stream], hleft⟩
        · rw [Bool.not_eq_true] at hagain
          exact ⟨[.call stream], hagain⟩
      | cons feed rest =>
        obtain ⟨-, hall, -⟩ := exists_of_dropWhile_eq_cons hdrop
        have hrest : ((l.call stream).ears stream).arrived = rest := by
          simp only [call, hattended, hdrop, if_true, ears_comeBack_self, ears_read_self]
          rfl
        have hshorter : rest.length < length := by
          rw [← hlength, hall, List.length_append, List.length_append, List.length_singleton]
          omega
        obtain ⟨turns, hturns⟩ := ih rest.length hshorter hcalled (congrArg List.length hrest)
        exact ⟨.call stream :: turns, hturns⟩
    · rw [Bool.not_eq_true] at hattended
      exact ⟨[], hattended⟩

theorem exists_run_isOver (l : Listener) : ∃ turns, (l.run turns).IsOver := by
  have hleave (l : Listener) (stream : Stream) :
      ∃ turns, ((l.run turns).ears stream).attended = false := by
    obtain ⟨arrivals, hclosed⟩ := exists_closed l stream
    obtain ⟨calls, hleft⟩ := exists_left hclosed
    exact ⟨arrivals ++ calls, by rwa [run_append]⟩
  obtain ⟨front, hfront⟩ := hleave l .output
  obtain ⟨back, hback⟩ := hleave (l.run front) .errors
  refine ⟨front ++ back, ?_⟩
  rw [run_append]
  rintro (_ | _)
  · exact (stays_run (l.run front) back .output).left hfront
  · exact hback

/-! ### What is written down -/

/-- When both streams are left, their lines have been written down: all of them, each in one piece,
and those of each stream in order. -/
theorem text_run_eq_merge (coming : Stream → List (List UInt8)) (turns : List Turn)
    (hover : ((start coming).run turns).IsOver) :
    ∃ written : List (Stream × String),
      ((start coming).run turns).capture.text = String.join (written.map (·.2 ++ "\n")) ∧
        ∀ stream, linesOf stream written = byteLines (coming stream).flatten := by
  obtain ⟨log, h⟩ := (Follows.start coming).run turns
  obtain ⟨written, htext, hlines⟩ := Capture.exists_written_ofArrivals log
  rw [List.nil_append] at h
  refine ⟨written, by rw [h.capture, htext], fun stream => ?_⟩
  have hear := h.ears stream
  obtain ⟨hends, hclosed, harrived⟩ := hear.ended (hear.left (hover stream))
  have hall := hear.all
  rw [harrived, hear.closed hclosed, List.append_nil, List.flatten_nil, List.append_nil] at hall
  rw [hlines stream hends, hall]

def threeLines : Stream → List (List UInt8)
  | .output => [[97], [98, 10, 99]]
  | .errors => [[120, 10]]

/-- Both lines of the output are given up in the middle, the last one right before the end. -/
def givingUp : List Turn :=
  [.arrival .output, .call .output, .arrival .errors, .call .errors, .arrival .output,
    .call .output, .call .output, .arrival .errors, .call .errors, .arrival .output, .call .output]

theorem text_run_threeLines :
    ((start threeLines).run givingUp).IsOver ∧
      ((start threeLines).run givingUp).capture.text = "x\nab\nc\n" ∧
      ∃ written : List (Stream × String),
        ((start threeLines).run givingUp).capture.text =
            String.join (written.map (·.2 ++ "\n")) ∧
          ∀ stream, linesOf stream written = byteLines (threeLines stream).flatten := by
  have hover : ((start threeLines).run givingUp).IsOver := by
    rintro (_ | _) <;> rfl
  exact ⟨hover, by decide, text_run_eq_merge threeLines givingUp hover⟩

end Listener

end SnippetLens.Tool
