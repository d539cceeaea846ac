/-!
# Diagrams of trees

A diagram is a tree of labels.  Its text in the dot language is written depth first, and the nodes are
numbered as they are met, from zero on; every node but the root has one edge, to its parent, and the
picture is laid out from the bottom up, so that the root stands on top.
-/

namespace ScriptLang

/-- A tree of labels. -/
inductive Diagram where
  | node (label : String) (children : List Diagram)

namespace Diagram

/-- A node without children. -/
def leaf (label : String) : Diagram := node label []

/-- The label of a node that plays a role under its parent. -/
def roleLabel (role label : String) : String :=
  if role.isEmpty then label else role ++ " " ++ label

/-! ### Dot text -/

/-- A text with another one in place of each occurrence of a character. -/
def replaceChar (c : Char) (other text : List Char) : List Char :=
  text.flatMap fun d => if d = c then other else [d]

/-- A text as it is written inside the quotes of the dot language.  The backslashes come first; those
that the other escapes bring with them are not escaped again. -/
def escape (text : List Char) : List Char :=
  let backslashes := replaceChar '\\' ['\\', '\\'] text
  let quotes := replaceChar '"' ['\\', '"'] backslashes
  replaceChar '\n' ['\\', 'n'] quotes

/-- A text between the quotes of the dot language. -/
def quoted (text : String) : String :=
  "\"" ++ String.ofList (escape text.toList) ++ "\""

/-- The name of the node with a number; the mark tells the trees of one program apart. -/
def nodeName (mark : Char) (id : Nat) : String :=
  "Node_" ++ String.singleton mark ++ "_" ++ toString id

/-- The line that declares a node. -/
def nodeLine (mark : Char) (id : Nat) (label : String) : String :=
  "    " ++ nodeName mark id ++ "[label=" ++ quoted label ++ "];\n"

/-- The line that ties a node to its parent. -/
def edgeLine (mark : Char) (id parent : Nat) : String :=
  "    " ++ nodeName mark id ++ " -> " ++ nodeName mark parent ++ ";\n"

/-- What has been written of a diagram, and the number of the next node. -/
structure Drawing where
  text : String
  next : Nat

/-- Declares the next node and ties it to its parent; the root has none. -/
def Drawing.add (drawing : Drawing) (mark : Char) (parent : Option Nat) (label : String) : Drawing where
  text := drawing.text ++ nodeLine mark drawing.next label ++
    parent.elim "" (edgeLine mark drawing.next)
  next := drawing.next + 1

mutual

/-- A tree is written under its parent. -/
def draw (mark : Char) (parent : Option Nat) : Diagram → Drawing → Drawing
  | node label children, drawing =>
    drawAll mark drawing.next children (drawing.add mark parent label)

def drawAll (mark : Char) (parent : Nat) : List Diagram → Drawing → Drawing
  | [], drawing => drawing
  | d :: ds, drawing => drawAll mark parent ds (d.draw mark (some parent) drawing)

end

/-- The diagram in the dot language. -/
def dot (name : String) (mark : Char) (d : Diagram) : String :=
  let start : Drawing := ⟨"digraph " ++ quoted name ++ " \x7b\n    rankdir = BT;\n", 0⟩
  (d.draw mark none start).text ++ "\x7d\n"

end Diagram

end ScriptLang
