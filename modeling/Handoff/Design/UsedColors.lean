import Handoff.Css.Style
import Handoff.Design.Node

/-!
# The colors of a design

The distinct colors and gradients of a design, each where it is first used: node by node
in preorder, the fills of a node before its strokes and those before its shadows.  Colors
are told apart by their bytes, gradients by their CSS text.

`distinctBy key` keeps of a list the first element of every key, in order.
-/

namespace Handoff

/-! ## Firsts of equal keys -/

section

variable {α κ : Type}

/-- Appends `a` unless an element with its key is there already. -/
def appendNew [BEq κ] (key : α → κ) (kept : List α) (a : α) : List α :=
  if kept.any (key · == key a) then kept else kept ++ [a]

/-- The first element of every key. -/
def distinctBy [BEq κ] (key : α → κ) (items : List α) : List α :=
  items.foldl (appendNew key) []

end

namespace Design

/-! ## Colors and gradients in use -/

/-- A linear gradient. -/
structure Gradient where
  angle : Float
  stops : List GradientStop
deriving BEq

/-- The CSS text of a gradient. -/
def Gradient.css (g : Gradient) : String := Css.linearGradient g.angle g.stops

/-- The gradient of a paint, if it is one. -/
def Paint.gradient? (p : Paint) : Option Gradient :=
  match p.fill with
  | .linearGradient angle stops => some ⟨angle, stops⟩
  | _ => none

/-- The color of an effect, if it is a shadow. -/
def Effect.color? : Effect → Option ColorRef
  | dropShadow s | innerShadow s => some s.color
  | layerBlur _ | backgroundBlur _ => none

/-- The paints of a style, fills before strokes. -/
def Style.paints (s : Style) : List Paint := s.fills ++ s.strokes

/-- The colors of a style in the order of use. -/
def Style.colors (s : Style) : List ColorRef :=
  s.paints.filterMap Paint.solid? ++ s.effects.filterMap Effect.color?

/-- The gradients of a style in the order of use. -/
def Style.gradients (s : Style) : List Gradient :=
  s.paints.filterMap Paint.gradient?

/-- The distinct colors and gradients of a design. -/
structure UsedColors where
  solids : List ColorRef
  gradients : List Gradient

/-- The colors and gradients of a forest, each where it is first used. -/
def UsedColors.ofForest (forest : List Node) : UsedColors where
  solids :=
    distinctBy (·.color.bytes)
      ((Node.preorderList forest).flatMap fun n => n.box.style.colors)
  gradients :=
    distinctBy Gradient.css
      ((Node.preorderList forest).flatMap fun n => n.box.style.gradients)

end Design

end Handoff
