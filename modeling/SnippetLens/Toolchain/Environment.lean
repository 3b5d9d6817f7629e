import SnippetLens.Files.Tree

/-!
What a process is given besides its arguments: variables, the account it runs under, and its
number; and the directories and programs that are found through them.
-/

namespace SnippetLens.Toolchain

open Files

structure Environment where
  vars : List (String × String)
  /-- The home directory of the account, if it is known, for when no variable names one. -/
  accountHome : Option FilePath
  /-- The number of the process, as it is written. -/
  processId : String
  deriving DecidableEq, Repr

namespace Environment

def get? (env : Environment) (name : String) : Option String :=
  (env.vars.find? fun entry => entry.1 = name).map (·.2)

def userHome? (env : Environment) : Option FilePath :=
  match env.get? "HOME" with
  | some home => if home.isEmpty then env.accountHome else some ⟨home⟩
  | none => env.accountHome

def temporaryDirectory (env : Environment) : FilePath :=
  ⟨(env.get? "TMPDIR").getD "/tmp"⟩

def firstDirectory? (env : Environment) (files : FileTree) (names : List String) :
    Option FilePath :=
  (names.filterMap fun name => (env.get? name).map FilePath.mk).find? files.isDirectory

/-- A directory of the search path, whose first name may be a tilde for the home directory. -/
def searchDirectory (env : Environment) (entry : List Char) : FilePath :=
  let home := (((env.get? "HOME").map FilePath.mk).or env.accountHome).getD ⟨""⟩
  match entry with
  | ['~'] => home
  | '~' :: '/' :: rest =>
    (FilePath.steps ⟨String.ofList rest⟩).foldl
      (fun p name => if name = "." then p else p / name) home
  | _ => ⟨String.ofList entry⟩

def splitColons (cs : List Char) : List (List Char) :=
  match cs with
  | [] => [[]]
  | c :: r =>
    if c = ':' then [] :: splitColons r
    else
      match splitColons r with
      | [] => [[c]]
      | part :: parts => (c :: part) :: parts

def findProgram? (env : Environment) (files : FileTree) (name : String) : Option FilePath := do
  let searchPath ← env.get? "PATH"
  ((splitColons searchPath.toList).map fun entry => env.searchDirectory entry / name).find?
    files.isProgram

end Environment

end SnippetLens.Toolchain
