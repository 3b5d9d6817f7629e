import SnippetLens.Text.Search

/-!
Which classes a listing leaves out. A class is named with dots between its packages and is
left out when its name begins with one of the given texts; so `kotlin.` hides `kotlin.Unit`
and not `kotlinx.Job`.
-/

namespace SnippetLens.Listing

/-- The beginnings of the class names that are hidden. -/
structure Suppression where
  stems : List String
  deriving DecidableEq, Repr

namespace Suppression

/-- The packages of the Kotlin and Java runtimes, and of the annotations that their tools add. -/
def runtimePackages : List String :=
  ["kotlin.", "kotlinx.", "java.", "javax.", "org.intellij.", "org.jetbrains."]

def standard : Suppression := ⟨runtimePackages⟩

def none : Suppression := ⟨[]⟩

def hides (s : Suppression) (name : String) : Bool :=
  s.stems.any fun stem => Text.startsWith stem name

@[simp] theorem hides_none (name : String) : none.hides name = false := rfl

end Suppression

structure FilterOptions where
  suppression : Suppression := .standard
  /-- Whether a bytecode listing shows virtual methods after the direct ones. -/
  virtualMethods : Bool := false
  deriving DecidableEq, Repr

end SnippetLens.Listing
