import SnippetLens.Shell.Lookup
import SnippetLens.Tool.Launch

/-!
The start of a shell: what its arguments ask for, and the state it starts with.
-/

namespace SnippetLens.Shell

open Files Tool

inductive ScriptText where
  | text (cs : List Char)
  /-- What is in a file. -/
  | file (content : List Char)
  /-- What is read on the first descriptor. -/
  | input
  deriving DecidableEq, Repr

structure Request where
  /-- The settings that were turned on, and those that were turned off. -/
  on : List Setting := []
  off : List Setting := []
  /-- The script is an argument itself. -/
  isText : Bool := false
  /-- What is told before the script runs. -/
  told : String := ""
  /-- The arguments after the options. -/
  rest : List (List Char) := []

namespace Request

def turn (r : Request) (setting : Setting) (on : Bool) : Request :=
  { r with
    on := setting.turn on r.on
    off := setting.turn (!on) r.off }

def turnByLetter (r : Request) (setting : Setting) (on : Bool) : Request :=
  { r.turn setting on with on := setting.turnByLetter on r.on }

/-- The request after the letters of an argument; some of them take a name from the arguments. -/
def letters (r : Request) (on : Bool) :
    List Char → List (List Char) → Except String (Request × List (List Char))
  | [], rest => .ok (r, rest)
  | 'c' :: cs, rest => letters { r with isText := true } on cs rest
  | 'l' :: cs, rest => letters r on cs rest
  | 'o' :: cs, rest =>
    match rest with
    | [] =>
      let settings := (Setting.all.map (·.1)).filter (!r.off.contains ·)
      let table := if on then Setting.table settings else Setting.commands settings
      letters { r with told := r.told ++ table } on cs []
    | name :: rest =>
      match Setting.ofName? (Text.Octets.toText name) with
      | some setting => letters (r.turn setting on) on cs rest
      | none =>
        .error ("Illegal option " ++ (if on then "-" else "+") ++ "o " ++ Text.Octets.toText name)
  | c :: cs, rest =>
    match Setting.ofLetter? c with
    | some setting => letters (r.turnByLetter setting on) on cs rest
    | none => .error ("Illegal option -" ++ Text.Octets.toText [c])

def ofArguments (r : Request) (arguments : List (List Char)) : Nat → Except String Request
  | 0 => .ok { r with rest := arguments }
  | n + 1 =>
    match arguments with
    | ['-'] :: rest | ['-', '-'] :: rest => .ok { r with rest }
    | ('-' :: cs) :: rest => do
      let (r, rest) ← r.letters true cs rest
      ofArguments r rest n
    | ('+' :: cs) :: rest => do
      let (r, rest) ← r.letters false cs rest
      ofArguments r rest n
    | rest => .ok { r with rest }

end Request

structure Heritage where
  environment : List (Name × List Char)
  descriptors : List (Nat × Nat)
  here : Place
  deaf : List Signal
  mask : Nat
  limits : List (Char × Option Nat × Option Nat)
  process : Nat
  parent : Nat

def usualVariables : List Variable :=
  let variable_ := fun (name : String) (value : List Char) =>
    Variable.mk name.toList (some value) false false
  [variable_ "PATH" usualSearchPath, variable_ "PS1" ['#', ' '], variable_ "PS2" ['>', ' '],
    variable_ "PS4" ['+', ' ']]

def freshState (files : FileTree) (h : Heritage) (name : List Char) : State :=
  let isName := fun (name : Name) => !name.isEmpty && Reader.nameAt name = name
  let handed := h.environment.filter fun v => isName v.1
  let blank : State := {
    name
    descriptors := h.descriptors.filter (·.1 ≤ lastDescriptor)
    here := h.here, directory := [], deaf := h.deaf, mask := h.mask, limits := h.limits
    process := h.process }
  let give := fun (s : State) (name : Name) (value : List Char) (exported : Bool) =>
    let old := (s.lookup? name).any (·.exported)
    s.replace ⟨name, some value, exported || old, false⟩
  let s := { blank with vars := usualVariables }
  let s := handed.foldl (fun s v => give s v.1 v.2 true) s
  let s := give s "IFS".toList [' ', '\t', '\n'] false
  let s := give s "OPTIND".toList ['1'] false
  let s := give s "PPID".toList (decimal h.parent) false
  let known := (s.get? "PWD".toList).filter fun cs =>
    (pathOf cs).isAbsolute && (files.locate (pathOf cs)).toOption = some h.here
  let directory := known.getD (Text.Octets.ofText (Place.path h.here).text)
  { give s "PWD".toList directory true with directory }

/-- The start of a shell: its state, what it says before anything else, and the script it is to run
or why there is none. -/
def startShell (files : FileTree) (h : Heritage) (launch : Launch) :
    State × String × Except String ScriptText :=
  let octets := Text.Octets.ofText
  let s := freshState files h (octets launch.name)
  let arguments := launch.arguments.map octets
  match Request.ofArguments {} arguments (arguments.length + 1) with
  | .error message => (s, "", .error message)
  | .ok r =>
    let s := { s with settings := r.on }
    let withArguments := fun (s : State) (words : List (List Char)) =>
      match words with
      | [] => s
      | name :: rest => { s with name, arguments := rest }
    match r.isText, r.rest with
    | true, [] => (s, r.told, .error "-c requires an argument")
    | true, text :: words => (withArguments s words, r.told, .ok (.text text))
    | false, [] => (s.turn .readsInput true, r.told, .ok .input)
    | false, script :: words =>
      if s.has .readsInput then
        ({ s with arguments := script :: words }, r.told, .ok .input)
      else
        match files.read (pathOf script) with
        | .ok content =>
          ({ s with name := script, arguments := words }, r.told,
            .ok (.file (Text.Octets.ofBytes content)))
        | .error .isDirectory =>
          ({ s with name := script, arguments := words }, r.told, .ok (.file []))
        | .error cause =>
          let why := match cause with
            | .notFound | .notDirectory => "No such file"
            | cause => cause.reason
          (s, r.told, .error ("cannot open " ++ Text.Octets.toText script ++ ": " ++ why))

end SnippetLens.Shell
