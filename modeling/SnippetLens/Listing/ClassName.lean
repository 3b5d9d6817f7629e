/-!
Names of classes in a listing.
-/

namespace SnippetLens.Listing

def dotted (internalName : List Char) : String :=
  String.ofList (internalName.map fun c => if c = '/' then '.' else c)

def unknownName : String := "<UNKNOWN>"

end SnippetLens.Listing
