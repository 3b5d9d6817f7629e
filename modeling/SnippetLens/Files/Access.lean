import SnippetLens.Files.Tree
import SnippetLens.Text.Utf8

/-!
Reading and changing the file tree. A change answers with the tree after it, or with the cause
why nothing was changed.
-/

namespace SnippetLens.Files.FileTree

def put (t : FileTree) (place : Place) (node : Node) : FileTree :=
  if t.nodes.any fun entry => entry.1 = place then
    { t with nodes := t.nodes.map fun entry => if entry.1 = place then (place, node) else entry }
  else { t with nodes := t.nodes ++ [(place, node)] }

def erase (t : FileTree) (place : Place) : FileTree :=
  { t with nodes := t.nodes.filter fun entry => entry.1 ≠ place }

def eraseBelow (t : FileTree) (place : Place) : FileTree :=
  { t with nodes := t.nodes.filter fun entry => !place.isSuffixOf entry.1 }

/-! ### What stands where after a change -/

theorem find?_map_put (nodes : List (Place × Node)) (place sought : Place) (node : Node) :
    ((nodes.map fun entry => if entry.1 = place then (place, node) else entry).find?
        fun entry => entry.1 = sought).map (·.2) =
      if sought = place then
        if nodes.any fun entry => entry.1 = place then some node else none
      else (nodes.find? fun entry => entry.1 = sought).map (·.2) := by
  induction nodes with
  | nil => simp
  | cons entry nodes ih =>
    simp only [List.map_cons, List.find?_cons, List.any_cons]
    by_cases h : entry.1 = place
    · by_cases h' : sought = place
      · simp [h, h']
      · have h'' : place ≠ sought := Ne.symm h'
        simp only [h, h', h'', if_true, if_false, decide_false] at ih ⊢
        exact ih
    · by_cases h' : entry.1 = sought
      · subst h'
        simp [h]
      · simp only [h, h', if_false, decide_false, Bool.false_or] at ih ⊢
        exact ih

theorem find?_put_self (t : FileTree) {place : Place} (h : place ≠ []) (node : Node) :
    (t.put place node).find? place = some node := by
  unfold put find?
  by_cases known : t.nodes.any fun entry => entry.1 = place
  · rw [if_pos known, if_neg (by simpa using h), find?_map_put, if_pos rfl, if_pos known]
  · rw [if_neg known, if_neg (by simpa using h), List.find?_append]
    have unknown : t.nodes.find? (fun entry => entry.1 = place) = none := by
      rw [List.find?_eq_none]
      intro entry there here
      exact known (List.any_eq_true.2 ⟨entry, there, here⟩)
    simp [unknown]

theorem find?_put_of_ne (t : FileTree) {place sought : Place} (h : sought ≠ place) (node : Node) :
    (t.put place node).find? sought = t.find? sought := by
  by_cases known : t.nodes.any fun entry => entry.1 = place
  · simp only [put, find?, known, if_true, find?_map_put, h, if_false]
  · simp [put, find?, known, List.find?_append, Ne.symm h]

theorem find?_erase_self (t : FileTree) {place : Place} (h : place ≠ []) :
    (t.erase place).find? place = none := by
  simp [erase, find?, h]

theorem find?_erase_of_ne (t : FileTree) {place sought : Place} (h : sought ≠ place) :
    (t.erase place).find? sought = t.find? sought := by
  have same : (fun entry : Place × Node =>
      decide (decide (entry.1 ≠ place) = true ∧ decide (entry.1 = sought) = true)) =
        fun entry => decide (entry.1 = sought) := by
    funext entry
    by_cases h' : entry.1 = sought <;> simp [h', h]
  simp only [erase, find?, List.find?_filter, same]

/-! ### Reading and changing -/

def list (t : FileTree) (p : FilePath) : Except Failure (List String) := do
  let place ← t.locate p
  match t.find? place with
  | some .directory => return t.namesIn place
  | some _ => .error .notDirectory
  | none => .error .notFound

def read (t : FileTree) (p : FilePath) : Except Failure (List UInt8) := do
  match ← t.status p with
  | .file content _ => return content
  | .directory => .error .isDirectory
  | .link _ | .nullDevice | .interpreter => return []

def readText (t : FileTree) (p : FilePath) : Except Failure String := do
  match Text.Utf8.strict? (← t.read p) with
  | some text => return text
  | none => .error .notUtf8

/-- Where a path leads when a link at its end is put in its place, and a link at the end of that
one, and so on, as many times as the number says. -/
def lastTarget (t : FileTree) (p : FilePath) : Nat → FilePath
  | 0 => p
  | n + 1 =>
    if p.endsInSlash then p
    else
      match t.locate p false with
      | .error _ => p
      | .ok place =>
        match t.find? place with
        | some (.link target) => t.lastTarget (Place.path place.tail / target.text) n
        | _ => p

/-- The place of a file that is to be written, and what stands there. A path that ends in a slash,
or in a link to such a one, asks for a directory, and a file is not written as one. -/
def locateForWriting (t : FileTree) (p : FilePath) : Except Failure (Place × Option Node) := do
  let target := t.lastTarget p maxLinks
  if target.endsInSlash then
    let bare := (target.text.toList.reverse.dropWhile (· = '/')).reverse
    let _ ← t.locate (if bare.isEmpty then target else ⟨String.ofList bare⟩) false
    .error .isDirectory
  else
    let place ← t.locate p
    return (place, t.find? place)

/-- Writes a file: what it held is replaced, and a new one is made if there was none. -/
def write (t : FileTree) (p : FilePath) (bytes : List UInt8) : Except Failure FileTree := do
  match ← t.locateForWriting p with
  | (place, some (.file _ executable)) => return t.put place (.file bytes executable)
  | (place, none) => return t.put place (.file bytes false)
  | (_, some .directory) => .error .isDirectory
  | (_, some .nullDevice) => return t
  | (_, some .interpreter) => .error .busy
  | (_, some (.link _)) => .error .tooManyLinks

def writeText (t : FileTree) (p : FilePath) (text : String) : Except Failure FileTree :=
  t.write p (Text.Utf8.encode text)

def remove (t : FileTree) (p : FilePath) : Except Failure FileTree := do
  let place ← t.locate p false
  match t.find? place with
  | none => .error .notFound
  | some .directory => .error .isDirectory
  | some _ => return t.erase place

def removeAll (t : FileTree) (p : FilePath) : Except Failure FileTree := do
  let place ← t.locate p false
  match t.find? place with
  | none => .error .notFound
  | some _ => return t.eraseBelow place

def makeDirectory (t : FileTree) (p : FilePath) : Except Failure FileTree := do
  let bare := (p.text.toList.reverse.dropWhile (· = '/')).reverse
  let place ← t.locate (if bare.isEmpty then p else ⟨String.ofList bare⟩) false
  match t.find? place with
  | some _ => .error .exists
  | none => return t.put place .directory

/-- Makes the directories of a list of paths, each the parent of the one before it, from the
first one on whose parent exists. -/
def makeAlong (t : FileTree) : List FilePath → Except Failure FileTree
  | [] => .error .wholeTree
  | p :: above =>
    if p.text.isEmpty then .ok t
    else
      match t.makeDirectory p with
      | .ok t => .ok t
      | .error .notFound => do
        let t ← makeAlong t above
        match t.makeDirectory p with
        | .ok t => return t
        | .error cause => if t.isDirectory p then return t else .error cause
      | .error cause => if t.isDirectory p then .ok t else .error cause

/-- Makes a directory and the ones above it that are missing. A directory that is there already
is no failure. -/
def makeDirectories (t : FileTree) (p : FilePath) : Except Failure FileTree :=
  t.makeAlong p.ancestors

/-- The tree with a node at a path, and with the directories above it made. A path that cannot be
made leaves the tree as it is. -/
def graft (t : FileTree) (p : FilePath) (node : Node) : FileTree :=
  let t := (p.parent?.bind fun above => (t.makeDirectories above).toOption).getD t
  match t.locate p false with
  | .ok place => t.put place node
  | .error _ => t

/-- What is below a directory, no deeper than the number says: the path from the directory on,
and the bytes of what is not a directory. -/
def contents (t : FileTree) (p : FilePath) (below : String) :
    Nat → List (String × Option (List UInt8))
  | 0 => []
  | depth + 1 =>
    match t.list p with
    | .error _ => []
    | .ok names =>
      names.flatMap fun name =>
        let path := p / name
        let shown := below ++ name
        if t.isDirectory path then (shown, none) :: t.contents path (shown ++ "/") depth
        else [(shown, some ((t.read path).toOption.getD []))]

/-- All that is below a directory, in the order of the paths. A link counts as what it leads
to. -/
def snapshot (t : FileTree) (p : FilePath) : List (String × Option (List UInt8)) :=
  (t.contents p "" (maxLinks + t.nodes.length + 1)).mergeSort fun a b => a.1 ≤ b.1

end SnippetLens.Files.FileTree
