import SnippetLens.Shell.Builtin.Options

/-!
The commands on processes: signals, what is done when one arrives, and waiting for what was started.
-/

namespace SnippetLens.Shell

namespace Act

/-! ### Waiting -/

/-- Asks about the processes that are over, at most as many as the number says. What ended by a
signal is told if it belongs to the job that is waited for. -/
def reap (awaited : Option Nat) : Nat → Act Unit
  | 0 => return
  | n + 1 => do
    let s ← get
    match s.world.reap? s.self with
    | none => return
    | some (process, outcome, world) =>
      set { s with world }
      let isAwaited := s.state.jobs.any fun j =>
        some j.number = awaited && j.members.any (·.1 = process)
      change fun s => { s with jobs := s.jobs.map (·.record process outcome) }
      match if isAwaited then outcome.notice? else none with
      | some notice =>
        let _ ← write 2 (notice.toList ++ ['\n'])
      | none => pure ()
      reap awaited n

def reapAll (awaited : Option Nat) : Act Unit := do
  reap awaited ((← get).world.ended.length + 1)

def job? (number : Nat) : Act (Option Job) := do
  return (← state).jobs.find? (·.number = number)

/-- The answer of a job when it is over. A signal that there is an action for ends the waiting, if
it is to be heard. -/
def await (number : Nat) (hears : Bool) : Act Nat := do
  reapAll (some number)
  match ← job? number with
  | none => return 0
  | some job =>
    if job.isOver then return job.outcome.status
    else
      match (← state).caught, hears with
      | signal :: _, true => return 128 + signal
      | _, _ => throw .later

def forgetJob (number : Nat) : Act Unit :=
  change fun s => { s with jobs := s.jobs.filter (·.number ≠ number) }

def send (process : Nat) (signal : Signal) : Act Bool := do
  let s ← get
  if process = s.self then
    receive signal
    return true
  else
    modify fun s => { s with world := { s.world with sent := s.world.sent ++ [(process, signal)] } }
    return process = 0 || s.around.processes.contains process ||
      s.world.ended.any (·.1 = process)

end Act

namespace Builtin

/-! ### Jobs -/

def jobOf (word : Option (List Char)) : Act Job := do
  let jobs := (← Act.state).jobs
  let demand := fun (job : Option Job) (message : String) => match job with
    | some job => pure job
    | none => Act.refuse message
  let unknown := "No such job: " ++ Text.Octets.toText (word.getD [])
  match word with
  | none | some ['%'] | some ['%', '+'] | some ['%', '%'] => demand jobs[0]? "No current job"
  | some ['%', '-'] => demand jobs[1]? "No previous job"
  | some ['%', '?'] =>
    if 1 < jobs.length then Act.refuse "%?: ambiguous" else demand jobs[0]? unknown
  | some ('%' :: cs) =>
    let isNumber := !cs.isEmpty && cs.all Char.isDigit
    demand (if isNumber then jobs.find? (·.number = (digitsAt 10 0 cs).1) else none) unknown
  | some _ => Act.refuse unknown

def jobs (arguments : List (List Char)) : Act Nat := do
  let (options, names) ← Options.of [('l', false), ('p', false)] arguments
  Act.reapAll none
  let listed ← if names.isEmpty then pure (← Act.state).jobs
    else names.mapM fun name => jobOf (some name)
  for job in listed do
    match options.getLast? with
    | some ('p', _) => Act.put (decimal job.leader ++ ['\n'])
    | last =>
      let mark := Job.mark (← Act.state).jobs job
      Act.put (job.listing mark last.isSome).toList
      if job.isOver then Act.forgetJob job.number
  return 0

def resume (arguments : List (List Char)) : Act Nat := do
  let names ← Options.operands arguments
  let _ ← jobOf names.head?
  let name := (names.head?.map Text.Octets.toText).getD "(null)"
  Act.refuse ("job " ++ name ++ " not created under job control")

def waitForEach (answer : Nat) : List (List Char) → Act Nat
  | [] => return answer
  | word :: rest => do
    let known := (← Act.state).jobs
    let job ← if word.head? = some '%' then (fun j => some j) <$> jobOf (some word)
      else do
        let process ← Act.countOf word
        pure (known.find? (·.last = process))
    match job with
    | none => waitForEach 127 rest
    | some job =>
      let status ← Act.await job.number true
      let isOver := (← Act.job? job.number).any (·.isOver)
      if isOver then
        Act.change fun s => { s with jobs := s.jobs.map fun j =>
          if j.number = job.number then { j with waited := true } else j }
        waitForEach status rest
      else return status

def wait (arguments : List (List Char)) : Act Nat := do
  let words ← Options.operands arguments
  if words.isEmpty then
    Act.reapAll none
    let s ← Act.state
    if s.jobs.all (·.isOver) then
      Act.change fun s => { s with jobs := s.jobs.map fun j => { j with waited := true } }
      return 0
    else
      match s.caught with
      | signal :: _ => return 128 + signal
      | [] => throw .later
  else waitForEach 127 words

/-! ### Signals -/

def trap (arguments : List (List Char)) : Act Nat := do
  match ← Options.operands arguments with
  | [] =>
    let s ← Act.state
    for signal in List.range Signal.names.length do
      match s.action? signal with
      | some action =>
        Act.put ("trap -- ".toList ++ quote action ++ ' ' :: (Signal.name signal).toList ++ ['\n'])
      | none => pure ()
    return 0
  | first :: rest =>
    let isSignal := !first.isEmpty && first.all Char.isDigit && (Signal.ofText? 0 first).isSome
    let (action, signals) := if rest.isEmpty || isSignal then (none, first :: rest)
      else (if first = ['-'] then none else some first, rest)
    for word in signals do
      match Signal.ofText? 0 word with
      | none =>
        let _ ← Act.write 2 ("trap: ".toList ++ word ++ ": bad trap\n".toList)
        return 1
      | some signal =>
        Act.change fun s =>
          let others := s.actions.filter (·.1 ≠ signal)
          { s with actions := match action with
              | some action => (signal, action) :: others
              | none => others }
    return 0

def killUsage : String :=
  "Usage: kill [-s sigspec | -signum | -sigspec] [pid | job]... or\nkill -l [exitstatus]"

def listSignals (words : List (List Char)) : Act Nat := do
  match words with
  | [] =>
    Act.put ['0', '\n']
    for name in Signal.names.tail do Act.put (name.toList ++ ['\n'])
    return 0
  | word :: _ =>
    let n ← Act.countOf word
    let signal := if 128 < n then n - 128 else n
    if 0 < signal && signal < Signal.names.length then
      Act.put ((Signal.name signal).toList ++ ['\n'])
      return 0
    else
      Act.refuse ("invalid signal number or exit status: " ++ Text.Octets.toText word)

/-- Sends a signal to processes. A number with a dash before it names a group of processes, which is
none that a script has made. -/
def sendTo (signal : Signal) (words : List (List Char)) : Act Nat := do
  let mut status := 0
  for word in words do
    let arrived ← match word with
      | '%' :: _ => do
        let _ ← jobOf (some word)
        pure false
      | '-' :: digits => do
        let _ ← Act.countOf digits
        pure false
      | _ => do Act.send (← Act.countOf word) signal
    if !arrived then
      Act.complain "No such process\n"
      status := 1
  return status

def kill (arguments : List (List Char)) : Act Nat := do
  let direct := match arguments with
    | ('-' :: word) :: _ => Signal.ofText? 1 word
    | _ => none
  let (signal, isList, words) ← match direct, arguments with
    | some signal, _ :: rest => pure (some signal, false, rest)
    | _, ('-' :: _) :: _ => do
      let (options, words) ← Options.of [('l', false), ('s', true)] arguments
      let mut signal : Option Signal := none
      for option in options do
        if option.1 = 's' then
          match Signal.ofText? 1 option.2 with
          | some n => signal := some n
          | none =>
            Act.refuse ("invalid signal number or name: " ++ Text.Octets.toText option.2)
      pure (signal, options.any (·.1 = 'l'), words)
    | _, words => pure (none, false, words)
  let signal := if isList then signal else signal <|> some Signal.terminate
  if isList then
    if signal.isSome && !words.isEmpty then Act.refuse killUsage else listSignals words
  else if words.isEmpty then Act.refuse killUsage
  else sendTo (signal.getD Signal.terminate) words

end Builtin

end SnippetLens.Shell
