import SnippetLens.Text.Search

/-!
Paths as they are written. A path keeps its spelling, which messages and commands show: joining
adds a slash only where one is needed, and going to the parent cuts the text and changes nothing
else. What a path leads to is a matter of the file tree.
-/

namespace SnippetLens.Files

structure FilePath where
  text : String
  deriving DecidableEq, Repr, Inhabited

namespace FilePath

def isAbsolute (p : FilePath) : Bool :=
  Text.startsWith "/" p.text

/-- Whether the path ends in a slash, which asks for a directory. -/
def endsInSlash (p : FilePath) : Bool :=
  p.text.toList.getLast? = some '/'

/-- The path with another one after it. A slash parts them, unless the first is empty or ends in
one; an absolute second path stands alone. -/
def join (p : FilePath) (rest : String) : FilePath :=
  if Text.startsWith "/" rest then ⟨rest⟩
  else if p.text.isEmpty || p.endsInSlash then ⟨p.text ++ rest⟩
  else ⟨p.text ++ "/" ++ rest⟩

instance : HDiv FilePath String FilePath := ⟨join⟩

def splitNames (cs : List Char) : List (List Char) :=
  match cs with
  | [] => [[]]
  | c :: r =>
    if c = '/' then [] :: splitNames r
    else
      match splitNames r with
      | [] => [[c]]
      | name :: names => (c :: name) :: names

/-- The steps of a path: its names, without empty ones and without the ones that stay in
place. A path that ends in a slash or by staying in place leads to a directory, and its last
step says so by staying in place. -/
def steps (p : FilePath) : List String :=
  let names := splitNames p.text.toList
  let moves := names.filter fun name => name ≠ [] && name ≠ ['.']
  let ends := names.getLast?.any fun name => name = [] || name = ['.']
  (moves ++ if ends && !moves.isEmpty then [['.']] else []).map String.ofList

/-- What a path starts with that is not a name: the root, or the place it is read from. -/
def head (cs : List Char) : List Char :=
  match cs with
  | '/' :: _ => ['/']
  | ['.'] => ['.']
  | '.' :: '/' :: _ => ['.']
  | _ => []

/-- The end of a path, last character first, without slashes and steps that stay in place. -/
def trimEnd : List Char → List Char
  | '/' :: r => trimEnd r
  | ['.'] => []
  | '.' :: '/' :: r => trimEnd r
  | cs => cs

/-- The path without its last name. The root and the empty path have none. -/
def parent? (p : FilePath) : Option FilePath :=
  let cs := p.text.toList
  let start := head cs
  match trimEnd (cs.drop start.length).reverse with
  | [] => if start = ['.'] then some ⟨""⟩ else none
  | body =>
    let rest := trimEnd (body.dropWhile (· ≠ '/'))
    some ⟨String.ofList (start ++ rest.reverse)⟩

/-- The path and the ones above it, nearest first; at most as many as the number says. -/
def ancestorsUpTo : Nat → FilePath → List FilePath
  | 0, _ => []
  | n + 1, p => p :: (match p.parent? with
    | some q => ancestorsUpTo n q
    | none => [])

/-- The path and the ones above it, nearest first. A parent is shorter than its child, so there
are no more of them than characters. -/
def ancestors (p : FilePath) : List FilePath :=
  ancestorsUpTo (p.text.length + 1) p

end FilePath

end SnippetLens.Files
