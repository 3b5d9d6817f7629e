/-!
Signals, each told by its number. A signal has a name; it ends a process that did not say what it
does about it, stops it, or leaves it alone.
-/

namespace SnippetLens.Shell

abbrev Signal := Nat

namespace Signal

def names : List String :=
  ["EXIT", "HUP", "INT", "QUIT", "ILL", "TRAP", "ABRT", "BUS", "FPE", "KILL", "USR1", "SEGV",
    "USR2", "PIPE", "ALRM", "TERM", "16", "CHLD", "CONT", "STOP", "TSTP", "TTIN", "TTOU", "URG",
    "XCPU", "XFSZ", "VTALRM", "PROF", "WINCH", "IO", "PWR", "SYS", "32", "33", "RTMIN"] ++
    (List.range 15).map (fun n => "RTMIN+" ++ toString (n + 1)) ++
    (List.range 14).map (fun n => "RTMAX-" ++ toString (14 - n)) ++ ["RTMAX"]

def atExit : Signal := 0

def arithmetic : Signal := 8

def brokenPipe : Signal := 13

def terminate : Signal := 15

def fromKeyboard : List Signal := [2, 3]

def harmless : List Signal := [0, 17, 18, 23, 28]

def stopping : List Signal := [19, 20, 21, 22]

def name (signal : Signal) : String :=
  names.getD signal ""

/-- The signal that a word tells by its number or by its name, in any case, from the number
`least` on. -/
def ofText? (least : Nat) (word : List Char) : Option Signal :=
  if !word.isEmpty && word.all Char.isDigit then
    (String.ofList word).toNat?.filter (· < names.length)
  else
    let upper := word.map Char.toUpper
    let found := names.findIdx fun name => name.toList = upper
    if found < names.length && least ≤ found then some found else none

def description (signal : Signal) : String :=
  match signal with
  | 1 => "Hangup"
  | 2 => "Interrupt"
  | 3 => "Quit"
  | 4 => "Illegal instruction"
  | 5 => "Trace/breakpoint trap"
  | 6 => "Aborted"
  | 7 => "Bus error"
  | 8 => "Floating point exception"
  | 9 => "Killed"
  | 10 => "User defined signal 1"
  | 11 => "Segmentation fault"
  | 12 => "User defined signal 2"
  | 13 => "Broken pipe"
  | 14 => "Alarm clock"
  | 15 => "Terminated"
  | 16 => "Stack fault"
  | 24 => "CPU time limit exceeded"
  | 25 => "File size limit exceeded"
  | 26 => "Virtual timer expired"
  | 27 => "Profiling timer expired"
  | 29 => "I/O possible"
  | 30 => "Power failure"
  | 31 => "Bad system call"
  | n => if 34 ≤ n then "Real-time signal " ++ toString (n - 34) else
      "Unknown signal " ++ toString n

end Signal

end SnippetLens.Shell
