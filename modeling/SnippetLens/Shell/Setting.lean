/-!
The settings of a shell: what it does differently from what is usual. A setting has a name, and
most have a letter too.
-/

namespace SnippetLens.Shell

inductive Setting where
  /-- The shell ends when a command fails. -/
  | stopsOnFailure
  /-- No pattern is replaced by paths. -/
  | keepsPatterns
  | ignoresEnd
  | interactive
  | monitor
  /-- Commands are read and not carried out. -/
  | onlyReads
  /-- The script is what the shell reads on its first descriptor. -/
  | readsInput
  /-- Each command is told before it runs. -/
  | traces
  /-- Each line of a script is told when it is read. -/
  | repeatsLines
  | vi
  | emacs
  /-- No file that exists is overwritten. -/
  | keepsFiles
  /-- Each variable that takes a value is handed to programs. -/
  | exportsAll
  | notifies
  /-- A parameter that is not set is a fault. -/
  | demandsParameters
  | privileged
  | keepsNoHistory
  | debug
  deriving DecidableEq, Repr

namespace Setting

/-- The settings in the order in which they are listed, with their names and letters. -/
def all : List (Setting × String × Option Char) :=
  [(stopsOnFailure, "errexit", some 'e'), (keepsPatterns, "noglob", some 'f'),
    (ignoresEnd, "ignoreeof", some 'I'), (interactive, "interactive", some 'i'),
    (monitor, "monitor", some 'm'), (onlyReads, "noexec", some 'n'),
    (readsInput, "stdin", some 's'), (traces, "xtrace", some 'x'),
    (repeatsLines, "verbose", some 'v'), (vi, "vi", some 'V'), (emacs, "emacs", some 'E'),
    (keepsFiles, "noclobber", some 'C'), (exportsAll, "allexport", some 'a'),
    (notifies, "notify", some 'b'), (demandsParameters, "nounset", some 'u'),
    (privileged, "privileged", some 'p'), (keepsNoHistory, "nolog", none),
    (debug, "debug", none)]

def ofLetter? (c : Char) : Option Setting :=
  (all.find? fun entry => entry.2.2 = some c).map (·.1)

def ofName? (name : String) : Option Setting :=
  (all.find? fun entry => entry.2.1 = name).map (·.1)

def turn (setting : Setting) (on : Bool) (settings : List Setting) : List Setting :=
  let others := settings.filter (· ≠ setting)
  if on then setting :: others else others

/-- The settings after one was turned on or off by its letter. Of the two ways of editing a line
only the last one that was asked for is on then. -/
def turnByLetter (setting : Setting) (on : Bool) (settings : List Setting) : List Setting :=
  match setting, on with
  | vi, true => turn vi true (turn emacs false settings)
  | emacs, true => turn emacs true (turn vi false settings)
  | setting, on => turn setting on settings

def letters (settings : List Setting) : List Char :=
  all.reverse.filterMap fun entry => if settings.contains entry.1 then entry.2.2 else none

def table (settings : List Setting) : String :=
  "Current option settings\n" ++ String.join (all.map fun entry =>
    let name := entry.2.1 ++ String.ofList (List.replicate (16 - entry.2.1.length) ' ')
    name ++ (if settings.contains entry.1 then "on\n" else "off\n"))

def commands (settings : List Setting) : String :=
  String.join (all.map fun entry =>
    (if settings.contains entry.1 then "set -o " else "set +o ") ++ entry.2.1 ++ "\n")

end Setting

end SnippetLens.Shell
