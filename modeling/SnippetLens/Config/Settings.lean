import SnippetLens.Listing.Suppression
import SnippetLens.Toolchain.Discovery

/-!
The configuration: where the toolchain is, how a build is run, and what the listings leave out.
-/

namespace SnippetLens.Config

open Files

structure BuildSettings where
  /-- Whether the optimizer is used, or the plain dexer. -/
  optimize : Bool := true
  /-- The least API level that the code is made for. -/
  minApi : Nat := 21
  /-- The directory that builds work in, if not one of the process. -/
  scratch : Option FilePath := none
  /-- The seconds after which a tool is stopped, if ever. -/
  timeoutSeconds : Option Nat := none
  /-- The directory on the device that takes the code. -/
  deviceDirectory : String := "/sdcard"
  deriving DecidableEq, Repr

structure FilterSettings where
  /-- The beginnings of the names of hidden classes. -/
  suppressed : List String := Listing.Suppression.runtimePackages
  /-- Whether bytecode listings show virtual methods. -/
  virtualMethods : Bool := false
  deriving DecidableEq, Repr

structure Settings where
  toolchain : Toolchain.Hints := {}
  build : BuildSettings := {}
  filters : FilterSettings := {}
  deriving DecidableEq, Repr

def Settings.filterOptions (s : Settings) : Listing.FilterOptions where
  suppression := ⟨s.filters.suppressed⟩
  virtualMethods := s.filters.virtualMethods

end SnippetLens.Config
