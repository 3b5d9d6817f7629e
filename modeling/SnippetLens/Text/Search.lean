/-!
Looking for a fixed text inside another one, on lists of characters.
-/

namespace SnippetLens.Text

/-- What follows `lead` in `cs`, when `cs` begins with it. -/
def after? (lead cs : List Char) : Option (List Char) :=
  match lead, cs with
  | [], cs => some cs
  | _ :: _, [] => none
  | a :: lead, c :: cs => if a = c then after? lead cs else none

def occursIn (needle : List Char) : List Char → Bool
  | [] => needle.isEmpty
  | c :: r => needle.isPrefixOf (c :: r) || occursIn needle r

/-- The characters without `needle`, taken out from the front on, no two places
overlapping. The number counts the characters of a place that are still to be dropped. -/
def eraseFrom (needle : List Char) : Nat → List Char → List Char
  | _, [] => []
  | 0, c :: r =>
    if needle.isPrefixOf (c :: r) then eraseFrom needle (needle.length - 1) r
    else c :: eraseFrom needle 0 r
  | dropped + 1, _ :: r => eraseFrom needle dropped r

def eraseAll (needle s : String) : String :=
  if needle.isEmpty then s else String.ofList (eraseFrom needle.toList 0 s.toList)

def startsWith (lead s : String) : Bool :=
  lead.toList.isPrefixOf s.toList

def contains (needle s : String) : Bool :=
  occursIn needle.toList s.toList

theorem after?_eq_some_iff {lead cs r : List Char} : after? lead cs = some r ↔ cs = lead ++ r := by
  fun_induction after? lead cs <;> grind

theorem occursIn_iff {needle cs : List Char} : occursIn needle cs = true ↔ needle <:+: cs := by
  induction cs with
  | nil => cases needle <;> simp [occursIn]
  | cons c r ih => simp [occursIn, ih, List.infix_cons_iff]

end SnippetLens.Text
