import Handoff.Design.Node
import Handoff.Naming

/-!
# Text styles

Texts of equal typography share a text style.  `TextGroup.ofForest` lists the text styles
of a design where they are first used, each with the texts that use it and a name made
from family, size and weight.
-/

namespace Handoff.Design

/-- A text style and the texts that use it. -/
structure TextGroup where
  /-- An identifier that no other text style of the design has. -/
  name : String
  typography : Typography
  nodeIds : List String
  /-- The first text that uses the style. -/
  sample : String

/-- The conventional name of a font weight. -/
def weightName (weight : Nat) : String :=
  if weight < 150 then "thin"
  else if weight < 250 then "extralight"
  else if weight < 350 then "light"
  else if weight < 450 then "normal"
  else if weight < 550 then "medium"
  else if weight < 650 then "semibold"
  else if weight < 750 then "bold"
  else if weight < 850 then "extrabold"
  else "black"

/-- What a text style is called before the name is made an identifier. -/
def Typography.title (t : Typography) : String :=
  t.family ++ " " ++ Decimal.plain t.size ++ " " ++ weightName t.weight ++
    (if t.italic then " italic" else "")

namespace TextGroup

/-- Adds a text to the group of its typography, or as the first of a new one. -/
def insert (groups : List TextGroup) (id : String) (text : TextStyle) : List TextGroup :=
  match groups with
  | [] => [⟨"", text.typography, [id], text.characters⟩]
  | g :: rest =>
    if g.typography == text.typography then { g with nodeIds := g.nodeIds ++ [id] } :: rest
    else g :: insert rest id text

/-- Adds a node to the groups if it is a text. -/
def insertNode (groups : List TextGroup) (n : Node) : List TextGroup :=
  match n.box.style.text with
  | some text => insert groups n.box.id text
  | none => groups

/-- Gives names to groups in turn. -/
def nameAll (names : Registry) : List TextGroup → List TextGroup
  | [] => []
  | g :: rest =>
    let (name, names) := names.register g.typography.title "text_style"
    { g with name } :: nameAll names rest

/-- The text styles of a forest. -/
def ofForest (forest : List Node) : List TextGroup :=
  nameAll .empty ((Node.preorderList forest).foldl insertNode [])

end TextGroup

end Handoff.Design
