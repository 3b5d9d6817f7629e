/-!
What a condensed native code listing says, and how it is written: the classes, under each its
methods with a blank line between two of them, under each its instructions.
-/

namespace SnippetLens.NativeCode

/-- One line of a condensed listing. -/
inductive Item where
  /-- A class is shown from here on. -/
  | heading (name : String)
  /-- A blank line between two methods of a class. -/
  | gap
  /-- A method of the class above. -/
  | signature (text : String)
  /-- An instruction of the method above. -/
  | instruction (address text : String)
  deriving DecidableEq, Repr

/-- The text of a line, with its line feed. -/
def Item.render : Item → String
  | .heading name => "class " ++ name ++ "\n"
  | .gap => "\n"
  | .signature text => "    " ++ text ++ "\n"
  | .instruction address text => "        " ++ address ++ ": " ++ text ++ "\n"

def render (items : List Item) : String :=
  String.join (items.map Item.render)

theorem render_append (front back : List Item) :
    (render (front ++ back)).toList = (render front).toList ++ (render back).toList := by
  simp [render]

/-- A method: its signature, and its instructions, each an address and a text, in order. -/
structure MethodReport where
  signature : String
  instructions : List (String × String)
  deriving DecidableEq, Repr

structure ClassReport where
  name : String
  methods : List MethodReport
  deriving DecidableEq, Repr

def MethodReport.items (m : MethodReport) : List Item :=
  .signature m.signature :: m.instructions.map fun i => .instruction i.1 i.2

def ClassReport.items (c : ClassReport) : List Item :=
  .heading c.name :: [Item.gap].intercalate (c.methods.map MethodReport.items)

end SnippetLens.NativeCode
