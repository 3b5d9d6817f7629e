import SnippetLens.Shell.Step

/-!
The processes of a script. They take turns: in a turn a process takes so many steps, or fewer if it
ends or must wait for another one. A process that was started comes before the one that started it,
which has the rest of its turn first. Signals arrive between two turns.

The script is over when its first process has ended and the streams that are watched are closed. If
every process waits for another one it never is.
-/

namespace SnippetLens.Shell

open Tool

structure Machine where
  /-- The process whose turn it is. -/
  current : Running
  /-- How many steps it may still take, and whether it has taken one. -/
  left : Nat
  hasMoved : Bool := false
  /-- The other processes in the order of their turns. -/
  others : List Process := []
  /-- How many processes have had a turn in which nothing happened, one after another. -/
  idle : Nat := 0
  /-- The first process, the one that started it, and how it ended. -/
  first : Nat
  outside : Nat
  outcome : Option Outcome := none

namespace Machine

def turnLength : Nat := 500

/-- The surroundings of a process among others. The first process of the script is there until it
is asked about, even if it has ended. -/
def surroundings (first outside : Nat) (others : List Process) : Surroundings where
  processes := [1, outside, first] ++ others.map (·.id)
  files := others.flatMap Process.openFiles

def ofProcess (p : Process) (world : World) : Machine where
  current := { process := p, world, around := surroundings p.id p.parent [] }
  left := turnLength
  first := p.id
  outside := p.parent

def isOver (m : Machine) : Bool :=
  m.outcome.isSome && !m.current.world.isWatched

def isStuck (m : Machine) : Bool :=
  m.others.length < m.idle

/-- The processes and their world after one of them has ended. Those that it had started have lost
the process that would ask about them. -/
def bury (p : Process) (outcome : Outcome) (others : List Process) (world : World) :
    List Process × World :=
  let others := others.map fun q => if q.parent = p.id then { q with parent := 1 } else q
  let world := { world with ended := world.ended.filter (·.2.1 ≠ p.id) }
  let isMissed := others.any (·.id = p.parent)
  (others, if isMissed then world.finish p.id p.parent outcome else world)

def deliver (sent : List (Nat × Signal)) (processes : List Process) : List Process :=
  sent.foldl
    (fun ps s => ps.map fun p => if p.id = s.1 then p.receive s.2 else p) processes

def nextTurn (m : Machine) : Machine :=
  let r := m.current
  let others := m.others ++ r.born.reverse
  let (processes, world, outcome) := match r.process.control with
    | .over outcome =>
      let (processes, world) := bury r.process outcome others r.world
      (processes, world, if r.process.id = m.first then some outcome else m.outcome)
    | _ => (others ++ [r.process], r.world, m.outcome)
  let hasMoved := m.hasMoved || !world.sent.isEmpty || r.process.isOver
  let processes := deliver world.sent processes
  let world := { world with sent := [] }.settle (processes.flatMap Process.openFiles)
  let idle := if hasMoved then 0 else m.idle + 1
  match processes with
  | [] => { m with current := { r with world, born := [], isBlocked := false }, outcome, idle }
  | p :: others =>
    let around := surroundings m.first m.outside others
    let current : Running := { process := p, world, around }
    { m with current, left := turnLength, hasMoved := false, others, idle, outcome }

def step (m : Machine) : Machine :=
  match m.left with
  | 0 => m.nextTurn
  | left + 1 =>
    let r := m.current.step
    if r.isBlocked then { m with current := { r with isBlocked := false }, left := 0 }
    else { m with current := r, left, hasMoved := true }

def endsTurn (m : Machine) : Bool :=
  m.current.process.isStopped || m.current.process.isOver

def runFor : Nat → Machine → Machine
  | 0, m => m
  | n + 1, m =>
    if m.isOver || m.isStuck then m
    else runFor n (if m.endsTurn then m.nextTurn else m.step)

end Machine

end SnippetLens.Shell
