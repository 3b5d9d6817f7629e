import SnippetLens.Build.Stage

/-!
The channel from a build to whoever watches it. It hands on what was sent in the same order, and
it never holds up the build: once nobody receives any more, what is sent is dropped.
-/

namespace SnippetLens.Build

inductive Event where
  | status (text : String)
  /-- The whole content of a pane. -/
  | pane (pane : Pane) (text : String)
  deriving DecidableEq, Repr

def readyStatus : String := "Ready"

/-- What was sent and not received yet, first sent first, and whether it can still be received. -/
structure Channel where
  waiting : List Event := []
  watched : Bool := true
  deriving DecidableEq, Repr

namespace Channel

def send (c : Channel) (e : Event) : Channel :=
  if c.watched then { c with waiting := c.waiting ++ [e] } else c

def receive (c : Channel) : Option Event × Channel :=
  match c.waiting with
  | [] => (none, c)
  | e :: rest => (some e, { c with waiting := rest })

def close (_ : Channel) : Channel :=
  { waiting := [], watched := false }

/-- What is sent while somebody receives waits behind what was sent before. -/
theorem waiting_send {c : Channel} (h : c.watched) (e : Event) :
    (c.send e).waiting = c.waiting ++ [e] := by
  simp [send, h]

@[simp] theorem watched_send (c : Channel) (e : Event) : (c.send e).watched = c.watched := by
  unfold send
  split <;> rfl

/-- What is sent after the end of receiving is dropped. -/
@[simp] theorem send_close (c : Channel) (e : Event) : c.close.send e = c.close := rfl

end Channel

end SnippetLens.Build
