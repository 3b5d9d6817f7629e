import SnippetLens.Build.Explorer
import SnippetLens.Cli.Invocation
import SnippetLens.Cli.Panes
import SnippetLens.Listing.Stream
import SnippetLens.Tool.System

/-!
Running a command line: what is printed, what becomes of the files, and the exit code.

The commands that use the toolchain find it in the same way: `doctor` reports where everything is,
and `build` refuses to start where `doctor` reports something missing.
-/

namespace SnippetLens.Cli

open Files Toolchain Listing Build Config

/-! ### Condensing a dump -/

def condenseStream (kind : DumpKind) (options : FilterOptions) (stream : ByteStream) :
    Except CommandError String :=
  let (text, stream) := kind.condenseSource options stream
  match stream.failure with
  | some cause => .error (.io cause)
  | none => .ok text

def openDump (files : FileTree) (input : ByteStream) (path : FilePath) :
    Except CommandError ByteStream :=
  if path.text = "-" then .ok input
  else
    match files.status path with
    | .error .notFound => .error (.inputMissing path)
    | .error cause => .error (.io cause)
    | .ok _ =>
      match files.read path with
      | .ok bytes => .ok (.ofBytes bytes)
      | .error cause => .ok { reads := [.failed cause] }

def runFilter (s : Settings) (request : FilterRequest) (input : ByteStream) (d : Desk) :
    Except CommandError Unit × Desk :=
  let options := if request.allClasses then
      { s.filterOptions with suppression := .none }
    else s.filterOptions
  match (openDump d.files input request.input).bind (condenseStream request.kind options) with
  | .ok text => (.ok (), d.print text)
  | .error e => (.error e, d)

/-! ### Reporting the toolchain -/

def padded (width : Nat) (text : String) : String :=
  text ++ String.ofList (List.replicate (width - text.length) ' ')

def locationLine (files : FileTree) (entry : String × FilePath) : String :=
  padded 10 (if files.reaches entry.2 then "[ok]" else "[missing]") ++ " " ++
    padded 14 entry.1 ++ " " ++ entry.2.text ++ "\n"

def locationReport (files : FileTree) (l : Locations) : String :=
  String.join (l.labelled.map (locationLine files))

def runDoctor (env : Environment) (s : Settings) (d : Desk) : Except CommandError Unit × Desk :=
  match Plan.ofSettings env d.files s none with
  | (.error e, files) => (.error (.build e), { d with files })
  | (.ok plan, files) =>
    let d := { d with files }.print (locationReport files plan.locations)
    match (plan.locations.missing files).length with
    | 0 => (.ok (), d.print "All tools found.\n")
    | count => (.error (.toolsMissing count), d)

/-! ### Building -/

def buildSettings (s : Settings) (request : BuildRequest) : Settings :=
  if request.noOptimize then { s with build := { s.build with optimize := false } } else s

def outcomeError : Except BuildError Outcome → Except CommandError Unit
  | .ok .completed => .ok ()
  | .ok (.failed stage) => .error (.stageFailed stage)
  | .error e => .error (.build e)

def showBuild (quiet : Bool) (request : BuildRequest) (outcome : Except BuildError Outcome)
    (events : List Event) (d : Desk) : Except CommandError Unit × Desk :=
  let (panes, d) := events.foldl (collect quiet) ({}, d)
  match writePane panes .bytecode request.bytecodeOut d with
  | (.error e, d) => (.error e, d)
  | (.ok (), d) =>
    match writePane panes .nativeCode request.nativeOut d with
    | (.error e, d) => (.error e, d)
    | (.ok (), d) => (outcomeError outcome, d)

def runBuild (env : Environment) (s : Settings) (quiet : Bool) (request : BuildRequest)
    (d : Desk) : Except CommandError Unit × Desk :=
  if !d.files.isFile request.input then (.error (.inputMissing request.input), d)
  else
    match d.files.readText request.input with
    | .error cause => (.error (.io cause), d)
    | .ok source =>
      let s := buildSettings s request
      match Plan.ofSettings env d.files s request.scratch with
      | (.error e, files) => (.error (.build e), { d with files })
      | (.ok plan, files) =>
        let runner := Tool.systemRunner env (Tool.timeLimit s)
        let (outcome, b, _) := plan.run runner () (.start source files {})
        showBuild quiet request outcome b.channel.waiting { d with files := b.files }

/-! ### The program -/

def versionText (architecture : String) : String :=
  programName ++ " " ++ programVersion ++ "\n\nTarget: " ++ architecture ++ "\nOS: linux\n"

def runConfigured (env : Environment) (config : Option FilePath) (d : Desk)
    (command : Settings → Desk → Except CommandError Unit × Desk) :
    Except CommandError Unit × Desk :=
  match load env d.files config with
  | .error e => (.error (.config e), d)
  | .ok s => command s d

def runCommand (env : Environment) (architecture : String) (input : ByteStream) (i : Invocation)
    (d : Desk) : Except CommandError Unit × Desk :=
  match i.request with
  | .version => (.ok (), d.print (versionText architecture))
  | .doctor => runConfigured env i.config d (runDoctor env)
  | .filter request => runConfigured env i.config d fun s => runFilter s request input
  | .build request => runConfigured env i.config d fun s => runBuild env s i.quiet request

def usageLine : String := "Usage: " ++ programName ++ " [OPTIONS] <COMMAND>"

def usageText : String :=
  usageLine ++ "\n\n" ++
    "Commands:\n" ++
    "  build <FILE>          Build a Kotlin file through every stage\n" ++
    "  filter <KIND> <DUMP>  Condense a saved dexdump or oatdump listing\n" ++
    "  doctor                Tell where every tool is\n" ++
    "  version               Show the version\n\n" ++
    "Options:\n" ++
    "  -c, --config <FILE>   The configuration to use\n" ++
    "  -q, --quiet           Show no status texts\n" ++
    "  -v, --verbose         Tell more; may stand several times\n" ++
    "  -h, --help            Show this text\n" ++
    "  -V, --version         Show the version\n"

def misuseCode : Nat := 2

/-- Runs a command line: the exit code, and the desk after it. -/
def run (env : Environment) (architecture : String) (arguments : List String)
    (input : ByteStream) (files : FileTree) : Nat × Desk :=
  let d : Desk := { files }
  match asked arguments with
  | .misuse => (misuseCode, d.report usageLine)
  | .help => (0, d.print usageText)
  | .version name => (0, d.print (name ++ " " ++ programVersion ++ "\n"))
  | .run i =>
    match runCommand env architecture input i d with
    | (.ok (), d) => (0, d)
    | (.error e, d) => (e.exitCode, d.report e.message)

end SnippetLens.Cli
