import SnippetLens.Bytecode.Pattern
import SnippetLens.Bytecode.Report
import SnippetLens.Listing.ClassName
import SnippetLens.Listing.Scanner
import SnippetLens.Listing.Suppression

/-!
The scan that condenses a bytecode dump.

A class is opened by a `Class #` line and named by the line after it. Its methods follow the
line that heads the direct methods; each is a start line, a line with its name, a line with its
type, and its body. A line that ends a body is read again as a line between methods, and a line
that ends the methods is read again as a line between classes. Hidden classes are walked like
the others, and put out nothing.
-/

namespace SnippetLens.Bytecode

open Listing

/-- The class that is being read, and whether it is shown. -/
structure Owner where
  name : String
  shown : Bool
  deriving DecidableEq, Repr

/-- What the next line of a dump is read as. -/
inductive Place where
  | betweenClasses
  /-- The line that names a class. -/
  | descriptor
  /-- A line before the one that heads the direct methods. -/
  | beforeMethods (owner : Owner)
  | betweenMethods (owner : Owner)
  | methodName (owner : Owner)
  | methodType (owner : Owner) (name : String)
  | body (owner : Owner)
  deriving DecidableEq, Repr

def Owner.puts (owner : Owner) (items : List Item) : List Item :=
  if owner.shown then items else []

def openClass (options : FilterOptions) (name : String) : Owner × List Item :=
  let owner : Owner := ⟨name, !options.suppression.hides name⟩
  (owner, owner.puts [.heading name])

def stepBetweenClasses (line : String) : Place × List Item :=
  if isClassStart line then (.descriptor, []) else (.betweenClasses, [])

def stepBetweenMethods (options : FilterOptions) (owner : Owner) (line : String) :
    Place × List Item :=
  if Text.allBlank line then (.betweenMethods owner, [])
  else if isMethodStart line then (.methodName owner, [])
  else if options.virtualMethods && headsVirtualMethods line then (.betweenMethods owner, [])
  else stepBetweenClasses line

/-- A line of a method's body, or the one after it. -/
def stepBody (options : FilterOptions) (owner : Owner) (line : String) : Place × List Item :=
  match BodyLine.ofLine line with
  | .instruction text => (.body owner, owner.puts [.instruction text])
  | .metadata => (.body owner, [])
  | .boundary =>
    let r := stepBetweenMethods options owner line
    (r.1, owner.puts [.gap] ++ r.2)

def step (options : FilterOptions) : Place → String → Place × List Item
  | .betweenClasses, line => stepBetweenClasses line
  | .descriptor, line =>
    let name := ((classDescriptor? line).map dotted).getD unknownName
    let r := openClass options name
    (.beforeMethods r.1, r.2)
  | .beforeMethods owner, line =>
    if headsDirectMethods line then (.betweenMethods owner, []) else (.beforeMethods owner, [])
  | .betweenMethods owner, line => stepBetweenMethods options owner line
  | .methodName owner, line => (.methodType owner ((methodName? line).getD unknownName), [])
  | .methodType owner name, line =>
    (.body owner, owner.puts [.method name ((methodType? line).getD unknownName) owner.name])
  | .body owner, line => stepBody options owner line

/-- The end of the dump: what was announced and not named keeps the unknown name. -/
def finish (options : FilterOptions) : Place → List Item
  | .betweenClasses => []
  | .descriptor => (openClass options unknownName).2
  | .beforeMethods _ => []
  | .betweenMethods _ => []
  | .methodName owner => owner.puts [.method unknownName unknownName owner.name, .gap]
  | .methodType owner name => owner.puts [.method name unknownName owner.name, .gap]
  | .body owner => owner.puts [.gap]

def scanner (options : FilterOptions) : Scanner Place Item where
  start := .betweenClasses
  step := step options
  finish := finish options

def condense (options : FilterOptions) (lines : List String) : String :=
  render ((scanner options).scan lines)

end SnippetLens.Bytecode
