import SnippetLens.Config.Toml.Scalar
import SnippetLens.Config.Toml.Tree

/-!
Reading a TOML document. An entry belongs to the table of the header before it, or to the root;
the table of a header is put in its place when the next header begins, or at the end.
-/

namespace SnippetLens.Config.Toml

open Reader

/-- An entry: the path to its table, its key, and what `value` reads. -/
def entry (value : Reader Value) : Reader (List String × String × Value) := do
  let path ← keys
  exactly "="
  spaces
  let v ← value
  match path.getLast? with
  | some key => return (path.dropLast, key, v)
  | none => failure

/-- A value. Arrays and tables inside it may be nested as deep as the number says. -/
def value : Nat → Reader Value
  | 0 => do
    match ← peek with
    | some '[' | some '{' => failure
    | _ => scalar
  | depth + 1 => do
    match ← peek with
    | some '[' =>
      exactly "["
      let items ← separated (do blanks; let v ← value depth; blanks; return v) (exactly ",")
      if !items.isEmpty then
        let _ ← maybe (exactly ",")
      blanks
      exactly "]"
      return .array items
    | some '{' =>
      exactly "\x7b"
      let entries ← separated (do let e ← entry (value depth); spaces; return e) (exactly ",")
      spaces
      exactly "\x7d"
      match entries.foldlM (fun t (path, key, v) => Table.addEntry t path key v) Table.empty with
      | some t => return t.value
      | none => failure
    | _ => scalar

/-- A document that is being read: the root, and the table under the last header. -/
structure Progress where
  root : Table
  current : Table
  /-- The path and the key of the header, and whether it adds to an array of tables. -/
  header : Option (List String × String × Bool)

namespace Progress

def start : Progress := ⟨Table.empty, Table.empty, none⟩

def close (p : Progress) : Option Table :=
  match p.header with
  | none => some p.current
  | some (path, key, false) => p.root.closeHeader path key p.current
  | some (path, key, true) => p.root.closeArrayHeader path key p.current

def openHeader (p : Progress) (path : List String) (key : String) (ofArray : Bool) :
    Option Progress := do
  let root ← p.close
  if ofArray then
    return ⟨← root.openArrayHeader path key, Table.empty, some (path, key, true)⟩
  else
    let (current, root) ← root.openHeader path key
    return ⟨root, current, some (path, key, false)⟩

def addEntry (p : Progress) (path : List String) (key : String) (v : Value) : Option Progress := do
  return { p with current := ← p.current.addEntry path key v }

end Progress

def header : Reader (List String × String × Bool) := do
  let ofArray := (← maybe (exactly "[[")).isSome
  if !ofArray then exactly "["
  let path ← keys
  exactly (if ofArray then "]]" else "]")
  lineTrailing
  match path.getLast? with
  | some key => return (path.dropLast, key, ofArray)
  | none => failure

def line (p : Progress) : Reader Progress := do
  match ← peek with
  | some '#' => do comment; lineEnd; return p
  | some '\n' | some '\r' => do newline; return p
  | some '[' =>
    let (path, key, ofArray) ← header
    p.openHeader path key ofArray
  | some _ =>
    let (path, key, v) ← entry (value (depthLimit - 1))
    lineTrailing
    p.addEntry path key v
  | none => failure

def lines : Nat → Progress → Reader Progress
  | 0, p => do atEnd; return p
  | n + 1, p => do
    spaces
    match ← peek with
    | none => return p
    | some _ => lines n (← line p)

/-- The root table of a document, if the document is TOML. A byte order mark at its start is
passed over. -/
def parse? (document : String) : Option (List (String × Value)) := do
  let cs := match document.toList with
    | '\uFEFF' :: cs => cs
    | cs => cs
  let (progress, rest) ← lines (cs.length + 1) .start cs
  if rest.isEmpty then return entryValues (← progress.close).entries else none

end SnippetLens.Config.Toml
