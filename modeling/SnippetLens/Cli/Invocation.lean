import SnippetLens.Cli.Arguments
import SnippetLens.Files.FilePath
import SnippetLens.Listing.Dump

/-!
What the command line asks for. A few options may stand before or after the name of the command; one
that stands in both places counts once in each, and of two configurations the one after the name is
taken.
-/

namespace SnippetLens.Cli

open Files Listing

def programName : String := "kexp"

def programVersion : String := "0.1.0"

structure BuildRequest where
  input : FilePath
  noOptimize : Bool := false
  scratch : Option FilePath := none
  /-- The file for the bytecode, if it is not to be printed. -/
  bytecodeOut : Option FilePath := none
  /-- The file for the native code, if it is not to be printed. -/
  nativeOut : Option FilePath := none
  deriving DecidableEq, Repr

structure FilterRequest where
  kind : DumpKind
  /-- The dump; a dash is the standard input. -/
  input : FilePath
  /-- Whether no class is hidden. -/
  allClasses : Bool := false
  deriving DecidableEq, Repr

inductive Request where
  | build (request : BuildRequest)
  | filter (request : FilterRequest)
  | doctor
  | version
  deriving DecidableEq, Repr

structure Invocation where
  quiet : Bool := false
  /-- The configuration that is asked for. -/
  config : Option FilePath := none
  request : Request
  deriving DecidableEq, Repr

inductive Asked where
  | run (invocation : Invocation)
  | help
  /-- The version, asked for under this name. -/
  | version (name : String)
  | misuse
  deriving DecidableEq, Repr

/-! ### The grammar -/

def commonOptions : List OptionRule :=
  [⟨"verbose", some 'v', .counted⟩, ⟨"quiet", some 'q', .flag⟩, ⟨"config", some 'c', .valued⟩,
    ⟨"help", some 'h', .help⟩, ⟨"version", some 'V', .version⟩]

def commandNames : List (String × String) :=
  [("build", "build"), ("b", "build"), ("filter", "filter"), ("doctor", "doctor"),
    ("version", "version"), ("help", "help")]

def rootRules : ArgumentRules :=
  { options := commonOptions, below := commandNames.map (·.1) }

def isPath (text : String) : Bool := !text.isEmpty

def dumpKind? : String → Option DumpKind
  | "dex" => some .bytecode
  | "oat" => some .nativeCode
  | _ => none

def rulesOf : String → ArgumentRules
  | "build" =>
    { options := commonOptions ++
        [⟨"no-optimize", none, .flag⟩, ⟨"scratch", none, .valued⟩,
          ⟨"bytecode-out", none, .valued⟩, ⟨"native-out", none, .valued⟩]
      positionals := [isPath] }
  | "filter" =>
    { options := commonOptions ++ [⟨"all-classes", none, .flag⟩]
      positionals := [fun text => (dumpKind? text).isSome, isPath] }
  | _ => { options := commonOptions }

def requestOf (name : String) (a : Arguments) : Option Request :=
  let path := fun (long : String) => (a.value? long).map FilePath.mk
  match name, a.positionals with
  | "build", [input] =>
    some (.build ⟨⟨input⟩, a.has "no-optimize", path "scratch", path "bytecode-out",
      path "native-out"⟩)
  | "filter", [kind, input] => do
    return .filter ⟨← dumpKind? kind, ⟨input⟩, a.has "all-classes"⟩
  | "doctor", [] => some .doctor
  | "version", [] => some .version
  | _, _ => none

/-- What stops the reading of arguments comes to, for a command with the name. -/
def Stop.asked (name : String) : Stop → Asked
  | .misuse => .misuse
  | .help => .help
  | .version => .version name

def askedBelow (root : Arguments) (name : String) (rest : List String) : Asked :=
  let rules := rulesOf name
  let below := do
    let (own, _) ← Arguments.read rules {} rest
    own.finish rules
  match below with
  | .error stop => stop.asked (programName ++ "-" ++ name)
  | .ok own =>
    match root.finish rootRules, requestOf name own with
    | .ok root, some request =>
      let config := (own.value? "config").or (root.value? "config")
      .run ⟨root.has "quiet" || own.has "quiet", config.map FilePath.mk, request⟩
    | .error stop, _ => stop.asked programName
    | _, none => .misuse

def asked (arguments : List String) : Asked :=
  match Arguments.read rootRules {} arguments with
  | .error stop => stop.asked programName
  | .ok (_, []) => .misuse
  | .ok (root, text :: rest) =>
    match (commandNames.find? fun entry => entry.1 = text).map (·.2) with
    | none => .misuse
    | some "help" =>
      match rest with
      | [] => .help
      | [name] => if commandNames.any fun entry => entry.1 = name then .help else .misuse
      | _ => .misuse
    | some name => askedBelow root name rest

end SnippetLens.Cli
