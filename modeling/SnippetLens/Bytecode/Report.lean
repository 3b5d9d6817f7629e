/-!
What a condensed bytecode listing says, and how it is written: the classes, under each its
methods, under each its decoded instructions, and a blank line after each method.
-/

namespace SnippetLens.Bytecode

/-- One line of a condensed listing. -/
inductive Item where
  /-- A class is shown from here on. -/
  | heading (name : String)
  /-- A method of a class. -/
  | method (name type owner : String)
  /-- An instruction of the method above. -/
  | instruction (text : String)
  /-- The end of a method. -/
  | gap
  deriving DecidableEq, Repr

/-- The text of a line, with its line feed. -/
def Item.render : Item → String
  | .heading name => "class " ++ name ++ "\n"
  | .method name type owner =>
    "    " ++ name ++ type ++ " // " ++ owner ++ "." ++ name ++ "()\n"
  | .instruction text => "        " ++ text ++ "\n"
  | .gap => "\n"

def render (items : List Item) : String :=
  String.join (items.map Item.render)

theorem render_append (front back : List Item) :
    (render (front ++ back)).toList = (render front).toList ++ (render back).toList := by
  simp [render]

/-- A method: its name, its type, and its instructions in order. -/
structure MethodReport where
  name : String
  type : String
  instructions : List String
  deriving DecidableEq, Repr

structure ClassReport where
  name : String
  methods : List MethodReport
  deriving DecidableEq, Repr

def MethodReport.items (owner : String) (m : MethodReport) : List Item :=
  .method m.name m.type owner :: m.instructions.map .instruction ++ [.gap]

def ClassReport.items (c : ClassReport) : List Item :=
  .heading c.name :: c.methods.flatMap (MethodReport.items c.name)

end SnippetLens.Bytecode
