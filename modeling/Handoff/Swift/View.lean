import Handoff.Text.Lines

/-!
# Views

SwiftUI code is built as a tree of views and printed in one place.  A view is a head,
the views in its closure, and the modifiers applied to it; a modifier may itself have
several lines.
-/

namespace Handoff.Swift

/-- A view; `comment` stands on a line above it. -/
inductive View where
  | mk (comment : Option String) (head : String) (children : List View)
    (modifiers : List String)

namespace View

/-- The comment above a view. -/
def comment : View → Option String
  | mk comment _ _ _ => comment

/-- The expression that makes a view. -/
def head : View → String
  | mk _ head _ _ => head

/-- The views in the closure of a view. -/
def children : View → List View
  | mk _ _ children _ => children

/-- The modifiers of a view, without the point in front. -/
def modifiers : View → List String
  | mk _ _ _ modifiers => modifiers

/-- A view of nothing but its head. -/
def leaf (head : String) : View := mk none head [] []

/-- A view with others in it. -/
def group (head : String) (children : List View) : View := mk none head children []

/-- A view with further modifiers. -/
def modified (v : View) (more : List String) : View :=
  mk v.comment v.head v.children (v.modifiers ++ more)

/-- A view under a comment. -/
def commented (v : View) (comment : Option String) : View :=
  mk comment v.head v.children v.modifiers

/-- By how much the inside of a view is indented. -/
def step : Nat := 4

/-- A modifier on lines of its own. -/
def modifierText (indent : Nat) (modifier : String) : String :=
  "\n" ++ Text.spaces indent ++ "." ++
    Text.substitute '\n' ('\n' :: List.replicate indent ' ') modifier

/-- The comment line of a view, if it has one. -/
def commentText (indent : Nat) (comment : Option String) : String :=
  match comment with
  | some comment => Text.spaces indent ++ "// " ++ comment ++ "\n"
  | none => ""

mutual

/-- The text of a view at the given indent. -/
def render (indent : Nat) : View → String
  | mk comment head children modifiers =>
    commentText indent comment ++ Text.spaces indent ++ head ++
      (match children with
        | [] => ""
        | child :: rest =>
          " \x7b\n" ++ renderList (indent + step) (child :: rest) ++ Text.spaces indent ++
            "\x7d") ++
      String.join (modifiers.map (modifierText (indent + step)))

/-- The texts of views, each ended by a line feed. -/
def renderList (indent : Nat) : List View → String
  | [] => ""
  | v :: rest => v.render indent ++ "\n" ++ renderList indent rest

end

end View

end Handoff.Swift
