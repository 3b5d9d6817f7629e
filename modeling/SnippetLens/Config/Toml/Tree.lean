import SnippetLens.Config.Toml.Value

/-!
Putting the tables of a TOML document together.

Entries and headers name a table by a path. A table on the way that is not there yet is made; it
may be given a header of its own later if no entry made it. A table is defined once: an entry may
add to tables that entries made, and not to one that has a header.
-/

namespace SnippetLens.Config.Toml

mutual

inductive Node where
  | leaf (v : Value)
  | table (t : Table)
  /-- The tables of an array of tables, last first. -/
  | tables (last : Table) (before : List Table)

/-- A table that is being put together. It is implicit when only a path has named it so far, and
dotted when that was the path of an entry. -/
inductive Table where
  | mk (implicit dotted : Bool) (entries : List (String × Node))

end

namespace Table

def implicit : Table → Bool
  | mk implicit _ _ => implicit

def dotted : Table → Bool
  | mk _ dotted _ => dotted

def entries : Table → List (String × Node)
  | mk _ _ entries => entries

def empty : Table := mk false false []

def get? (t : Table) (key : String) : Option Node :=
  (t.entries.find? fun e => e.1 = key).map (·.2)

def put (t : Table) (key : String) (node : Node) : Table :=
  if t.entries.any fun e => e.1 = key then
    mk t.implicit t.dotted (t.entries.map fun e => if e.1 = key then (key, node) else e)
  else mk t.implicit t.dotted (t.entries ++ [(key, node)])

def erase (t : Table) (key : String) : Table :=
  mk t.implicit t.dotted (t.entries.filter fun e => e.1 ≠ key)

/-- Changes the table at a path, of whose tables the missing ones are made. The path of an entry
does not lead into a table that has a header. -/
def changeAt (ofEntry : Bool) (change : Table → Option Table) : List String → Table → Option Table
  | [], t => change t
  | key :: path, t =>
    match t.get? key with
    | none => do
      let inner ← changeAt ofEntry change path (mk true ofEntry [])
      return t.put key (.table inner)
    | some (.leaf _) => none
    | some (.tables last before) => do
      let inner ← changeAt ofEntry change path last
      return t.put key (.tables inner before)
    | some (.table inner) =>
      if ofEntry && !inner.implicit then none
      else do
        let inner ← changeAt ofEntry change path inner
        return t.put key (.table inner)

/-- The table with an entry. Its key is new, and its path leads to a table that entries made. -/
def addEntry (t : Table) (path : List String) (key : String) (v : Value) : Option Table :=
  t.changeAt true
    (fun inner =>
      if inner.dotted = path.isEmpty || (inner.get? key).isSome then none
      else some (inner.put key (.leaf v)))
    path

/-- The table at the end of a path, and its parent without it, as a header finds them: what is
there already must be a table that only the paths of headers have named. -/
def openHeader (root : Table) (path : List String) (key : String) : Option (Table × Table) := do
  let mut found := empty
  let mut root := root
  root ← root.changeAt false some path
  match ← nodeAt root path key with
  | none => pure ()
  | some (.table t) =>
    if t.implicit && !t.dotted then
      found := mk false false t.entries
      root ← root.changeAt false (fun inner => some (inner.erase key)) path
    else none
  | some _ => none
  return (found, root)
where
  nodeAt : Table → List String → String → Option (Option Node)
    | t, [], key => some (t.get? key)
    | t, step :: path, key =>
      match t.get? step with
      | some (.table inner) => nodeAt inner path key
      | some (.tables last _) => nodeAt last path key
      | _ => none

/-- The root with the array of tables that a header adds to, whose next table is not in it
yet: what is there already must be such an array. -/
def openArrayHeader (root : Table) (path : List String) (key : String) : Option Table :=
  root.changeAt false
    (fun inner =>
      match inner.get? key with
      | none => some inner
      | some (.tables ..) => some inner
      | some _ => none)
    path

def closeHeader (root : Table) (path : List String) (key : String) (t : Table) : Option Table :=
  root.changeAt false
    (fun inner =>
      match inner.get? key with
      | none => some (inner.put key (.table t))
      | some (.table old) => if old.implicit then some (inner.put key (.table t)) else none
      | some _ => none)
    path

def closeArrayHeader (root : Table) (path : List String) (key : String) (t : Table) :
    Option Table :=
  root.changeAt false
    (fun inner =>
      match inner.get? key with
      | none => some (inner.put key (.tables t []))
      | some (.tables last before) => some (inner.put key (.tables t (last :: before)))
      | some _ => none)
    path

end Table

mutual

def Node.value : Node → Value
  | .leaf v => v
  | .table t => t.value
  | .tables last before => .array (tableValues before ++ [last.value])

def Table.value : Table → Value
  | .mk _ _ entries => .table (entryValues entries)

/-- The values of tables given last first, in order. -/
def tableValues : List Table → List Value
  | [] => []
  | t :: before => tableValues before ++ [t.value]

def entryValues : List (String × Node) → List (String × Value)
  | [] => []
  | (key, node) :: rest => (key, node.value) :: entryValues rest

end

end SnippetLens.Config.Toml
