import SnippetLens.Decimal.Binary64

/-!
The values of a TOML document.
-/

namespace SnippetLens.Config.Toml

/-- A value. A table keeps its entries in the order of the document. -/
inductive Value where
  | text (s : String)
  | integer (n : Int)
  | float (x : Decimal.Binary64)
  | boolean (b : Bool)
  /-- A date, a time, or both. -/
  | moment
  | array (items : List Value)
  | table (entries : List (String × Value))
  deriving Repr, Inhabited

end SnippetLens.Config.Toml
