import SnippetLens.Shell.Builtin.Options

/-!
The commands on what processes may do: what is granted on new files, and how much of the machine is
used.
-/

namespace SnippetLens.Shell.Builtin

/-! ### New files -/

def octal (n : Nat) : List Char :=
  let digits := Nat.toDigits 8 n
  List.replicate (4 - digits.length) '0' ++ digits

def without (a b : Nat) : Nat :=
  a &&& (511 - b % 512)

def grants (granted : Nat) : List Char :=
  let letters := fun (shift : Nat) =>
    [('r', 4), ('w', 2), ('x', 1)].filterMap fun entry =>
      if granted >>> shift &&& entry.2 ≠ 0 then some entry.1 else none
  [','].intercalate ([('u', 6), ('g', 3), ('o', 0)].map fun entry =>
    entry.1 :: '=' :: letters entry.2)

def classesAt (cs : List Char) : Nat × List Char :=
  let letters := cs.takeWhile ['a', 'u', 'g', 'o'].contains
  let bits := letters.foldl (fun bits c => bits ||| (match c with
    | 'a' => 73
    | 'u' => 64
    | 'g' => 8
    | _ => 1)) 0
  (if bits = 0 then 73 else bits, cs.drop letters.length)

/-- The grants at the start of a description, where the ones of a class may be copied. -/
def bitsAt (before : Nat) (cs : List Char) : Nat × List Char :=
  let letters := cs.takeWhile ['r', 'w', 'x', 'u', 'g', 'o', 'X', 's'].contains
  let bits := letters.foldl (fun bits c => bits ||| (match c with
    | 'r' => 4
    | 'w' => 2
    | 'x' => 1
    | 'u' => before >>> 6
    | 'g' => before >>> 3
    | 'o' => before
    | 'X' => if before &&& 73 ≠ 0 then 1 else 0
    | _ => 0)) 0
  (bits &&& 7, cs.drop letters.length)

/-- What is granted after a description of changes, of which at most as many as the number says are
carried out. -/
def change (before : Nat) (classes : Option Nat) (granted : Nat) (cs : List Char) :
    Nat → Option Nat
  | 0 => none
  | n + 1 =>
    if cs.isEmpty then some granted
    else
      let (named, afterClasses) := match classes with
        | some named => (named, cs)
        | none => classesAt cs
      match afterClasses with
      | sign :: rest =>
        let (bits, rest) := bitsAt before rest
        let bits := bits * named
        let after := match sign with
          | '-' => some (without granted bits)
          | '=' => some (without granted (named * 7) ||| bits)
          | '+' => some (granted ||| bits)
          | _ => none
        after.bind fun granted =>
          match rest with
          | ',' :: rest => change before none granted rest n
          | rest => change before (some named) granted rest n
      | [] => none

def umask (arguments : List (List Char)) : Act Nat := do
  let (options, arguments) ← Options.of [('S', false)] arguments
  let mask := (← Act.state).mask
  match arguments with
  | [] =>
    Act.put ((if options.isEmpty then octal mask else grants (511 - mask)) ++ ['\n'])
  | mode :: _ =>
    if mode.head?.any Char.isDigit then
      match digitsAt 8 0 mode with
      | (n, []) => Act.change fun s => { s with mask := n % 512 }
      | _ => Act.refuse (State.illegalNumber mode)
    else
      match change (511 - mask) none (511 - mask) mode (mode.length + 1) with
      | some granted => Act.change fun s => { s with mask := without 511 granted }
      | none => Act.refuse ("Illegal mode: " ++ Text.Octets.toText mode)
  return 0

/-! ### Limits -/

def limits : List (Char × String × Option Nat) :=
  [('t', "time(seconds)", none), ('f', "file(blocks)", none), ('d', "data(kbytes)", none),
    ('s', "stack(kbytes)", some 8192), ('c', "coredump(blocks)", some 0),
    ('m', "memory(kbytes)", none), ('l', "locked memory(kbytes)", some 8192),
    ('p', "process", none), ('n', "nofiles", some 1048576), ('v', "vmemory(kbytes)", none),
    ('w', "locks", none), ('r', "rtprio", some 0)]

def limitOf (s : State) (entry : Char × String × Option Nat) : Option Nat × Option Nat :=
  let usual := if entry.1 = 's' || entry.1 = 'c' then none else entry.2.2
  ((s.limits.find? (·.1 = entry.1)).map (·.2)).getD (entry.2.2, usual)

def limitText (limit : Option Nat) : List Char :=
  match limit with
  | some n => decimal n ++ ['\n']
  | none => "unlimited\n".toList

def ulimit (arguments : List (List Char)) : Act Nat := do
  let letters := 'H' :: 'S' :: 'a' :: limits.map (·.1)
  let (options, arguments) ← Options.of (letters.map (·, false)) arguments
  let ways := options.filterMap fun o => if o.1 = 'H' || o.1 = 'S' then some o.1 else none
  let isHard := ways.getLast? = some 'H'
  let which := (options.filterMap fun o => if ['H', 'S', 'a'].contains o.1 then none else
    some o.1).getLast?.getD 'f'
  let isAll := options.any (·.1 = 'a')
  let s ← Act.state
  let shown := fun (limit : Option Nat × Option Nat) => if isHard then limit.2 else limit.1
  match arguments, limits.find? (·.1 = which) with
  | [], entry =>
    if isAll then
      for entry in limits do
        let name := entry.2.1.toList
        Act.put (name ++ List.replicate (20 - name.length) ' ' ++ ' ' ::
          limitText (shown (limitOf s entry)))
    else
      for entry in entry.toList do Act.put (limitText (shown (limitOf s entry)))
    return 0
  | [value], some entry =>
    if isAll then Act.refuse "too many arguments"
    let limit ← if value = "unlimited".toList then pure none
      else if value.all Char.isDigit then pure (some (digitsAt 10 0 value).1)
      else Act.refuse "bad number"
    let (low, high) := limitOf s entry
    let after := match ways.getLast? with
      | none => (limit, limit)
      | some 'H' => (low, limit)
      | some _ => (limit, high)
    Act.change fun s => { s with limits := (which, after) :: s.limits.filter (·.1 ≠ which) }
    return 0
  | _, _ => Act.refuse "too many arguments"

/-- Tells the time that the shell and its processes have used, which is too little to show. -/
def times : Act Nat := do
  let line := "0m0.000000s 0m0.000000s\n".toList
  Act.put (line ++ line)
  return 0

end SnippetLens.Shell.Builtin
