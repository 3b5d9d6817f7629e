import SnippetLens.Listing.ClassName
import SnippetLens.Listing.Scanner
import SnippetLens.Listing.Suppression
import SnippetLens.NativeCode.Pattern
import SnippetLens.NativeCode.Report

/-!
The scan that condenses a native code dump.

After the line that opens the listing, each line is offered to a table of rules: instructions,
in the code of a method; method headers, in a class that is shown; class headers, everywhere.
The first rule that is in force and recognises the line handles it, and a line that no rule
takes is dropped. After a method header the lines up to the one that heads its code are passed
over.
-/

namespace SnippetLens.NativeCode

open Listing

/-- Where in a dump the next line stands. -/
inductive Region where
  /-- Before the listing is opened. -/
  | preamble
  /-- In no class, or in one that is hidden. -/
  | outside
  /-- In a class that is shown, before its first method. -/
  | classTop
  /-- After a method header, before the line that heads its code. -/
  | beforeCode
  /-- In the code of a method. -/
  | code
  deriving DecidableEq, Repr

def Region.insideClass : Region → Bool
  | .preamble | .outside => false
  | .classTop | .beforeCode | .code => true

def Region.insideMethod : Region → Bool
  | .code => true
  | .preamble | .outside | .classTop | .beforeCode => false

/-- A rule for lines that are dispatched: where it is in force, and what it makes of a line
that it recognises. -/
structure Rule where
  inForce : Region → Bool
  apply : FilterOptions → Region → String → Option (Region × List Item)

def instructionRule : Rule where
  inForce := Region.insideMethod
  apply _ region line :=
    (instruction? line).map fun i => (region, [.instruction i.1 i.2])

/-- A method of a class that is shown. A blank line parts it from the method before it. -/
def methodRule : Rule where
  inForce := Region.insideClass
  apply _ region line :=
    (methodHeader? line).map fun signature =>
      (.beforeCode, (if region = .classTop then [] else [.gap]) ++ [.signature signature])

def classRule : Rule where
  inForce _ := true
  apply options _ line :=
    (classHeader? line).map fun internalName =>
      let name := dotted internalName
      if options.suppression.hides name then (.outside, []) else (.classTop, [.heading name])

def rules : List Rule :=
  [instructionRule, methodRule, classRule]

def dispatch (rules : List Rule) (options : FilterOptions) (region : Region) (line : String) :
    Option (Region × List Item) :=
  rules.findSome? fun rule =>
    if rule.inForce region then rule.apply options region line else none

def step (rules : List Rule) (options : FilterOptions) : Region → String → Region × List Item
  | .preamble, line => if opensListing line then (.outside, []) else (.preamble, [])
  | .beforeCode, line => if headsCode line then (.code, []) else (.beforeCode, [])
  | region, line => (dispatch rules options region line).getD (region, [])

theorem step_code_of_plain (options : FilterOptions) {line : String}
    (hclass : classHeader? line = none) (hmethod : methodHeader? line = none)
    (hinstruction : instruction? line = none) :
    step rules options .code line = (.code, []) := by
  simp [step, dispatch, rules, instructionRule, methodRule, classRule, Region.insideClass,
    Region.insideMethod, hclass, hmethod, hinstruction]

def scannerOf (rules : List Rule) (options : FilterOptions) : Scanner Region Item where
  start := .preamble
  step := step rules options
  finish _ := []

def scanner (options : FilterOptions) : Scanner Region Item :=
  scannerOf rules options

def condense (options : FilterOptions) (lines : List String) : String :=
  render ((scanner options).scan lines)

end SnippetLens.NativeCode
