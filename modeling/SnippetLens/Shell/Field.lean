import SnippetLens.Shell.Pattern

/-!
Fields: the texts that an expanded word is cut into. While a word is expanded its text is a list of
grains, characters that remember whether they may part fields and whether they may be signs of a
pattern.
-/

namespace SnippetLens.Shell

inductive Grain where
  /-- A character of the script, which does not part fields. -/
  | written (c : Char) (active : Bool)
  /-- A character of a value that was not quoted. -/
  | loose (c : Char)
  /-- Here a value that was not quoted begins. -/
  | edge
  /-- Parts two values that were not quoted, like a blank. -/
  | gap
  /-- Here one field ends and another begins. -/
  | parting
  /-- There is a field here, even if it is empty. -/
  | presence
  deriving DecidableEq, Repr

namespace Grain

def ofValue (quoted : Bool) (value : List Char) : List Grain :=
  if quoted then .presence :: value.map (.written · false) else .edge :: value.map .loose

def ofFields (quoted : Bool) (texts : List (List Char)) : List Grain :=
  if quoted then [Grain.parting].intercalate (texts.map (ofValue true))
  else .edge :: [Grain.gap].intercalate (texts.map (·.map .loose))

def text (between : List Char) (gs : List Grain) : List Char :=
  gs.flatMap fun g => match g with
    | .written c _ | .loose c => [c]
    | .parting | .gap => between
    | .presence | .edge => []

def marked (between : List Char) (gs : List Grain) : List Marked :=
  gs.flatMap fun g => match g with
    | .written c active => [⟨c, active⟩]
    | .loose c => [⟨c, true⟩]
    | .parting | .gap => between.map fun c => ⟨c, true⟩
    | .presence | .edge => []

/-- Grains with those of the script that are not quoted made loose. What stands together in the
script is one value. -/
def loosen (inValue : Bool) : List Grain → List Grain
  | [] => []
  | .written c true :: gs =>
    if inValue then .loose c :: loosen true gs else .edge :: .loose c :: loosen true gs
  | g :: gs => g :: loosen false gs

/-- The grains of a word that stands for a value: unless the value is quoted, what is not quoted in
the word may part fields. -/
def inPlace (quoted : Bool) (gs : List Grain) : List Grain :=
  if quoted then .presence :: gs else loosen false gs

end Grain

/-- The fields cut so far, last first, and the one that is being read, last character first. -/
structure Cutting where
  fields : List (List Marked) := []
  current : List Marked := []
  /-- Whether there is a field even if it has no character. -/
  present : Bool := false
  /-- Whether blanks have just ended a field, so that a separator would only end it too. -/
  ended : Bool := false

namespace Cutting

def close (c : Cutting) : Cutting :=
  if c.present || !c.current.isEmpty then { fields := c.current.reverse :: c.fields } else
    { c with current := [], present := false }

def blank (c : Cutting) : Cutting :=
  if c.present || !c.current.isEmpty then { c.close with ended := true } else c

def step (separators : List Char) (c : Cutting) : Grain → Cutting
  | .written char active => { c with current := ⟨char, active⟩ :: c.current, ended := false }
  | .presence => { c with present := true, ended := false }
  | .parting => { c.close with ended := false }
  | .edge => { c with ended := false }
  | .gap => c.blank
  | .loose char =>
    if !separators.contains char then
      { c with current := ⟨char, true⟩ :: c.current, ended := false }
    else if char = ' ' || char = '\t' || char = '\n' then c.blank
    else if c.ended then { c with ended := false }
    else { fields := c.current.reverse :: c.fields }

end Cutting

def fieldsOf (separators : List Char) (gs : List Grain) : List (List Marked) :=
  (gs.foldl (Cutting.step separators) {}).close.fields.reverse

end SnippetLens.Shell
