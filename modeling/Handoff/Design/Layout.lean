import Handoff.Design.Enumeration

/-!
# Layout

Each node of a design has one `Layout`: how it arranges its children (`Mode`), how large
it is on each axis (`Extent`), and how its parent places it (`Placement`).
-/

namespace Handoff.Design

/-- The direction in which a flow places its items. -/
inductive Direction where
  /-- Left to right. -/
  | horizontal
  /-- Top to bottom. -/
  | vertical
deriving DecidableEq, Repr, Inhabited

instance : Enumeration Direction where
  word
    | .horizontal => "horizontal"
    | .vertical => "vertical"
  all := [.horizontal, .vertical]
  find_word a := by cases a <;> rfl

/-- Where items lie across the direction of a flow. -/
inductive Alignment where
  | start
  | center
  | finish
  /-- On one line of text; for horizontal flows. -/
  | baseline
deriving DecidableEq, Repr, Inhabited

instance : Enumeration Alignment where
  word
    | .start => "start"
    | .center => "center"
    | .finish => "end"
    | .baseline => "baseline"
  all := [.start, .center, .finish, .baseline]
  find_word a := by cases a <;> rfl

/-- Where items lie along the direction of a flow. -/
inductive Distribution where
  | start
  | center
  | finish
  | spaceBetween
deriving DecidableEq, Repr, Inhabited

instance : Enumeration Distribution where
  word
    | .start => "start"
    | .center => "center"
    | .finish => "end"
    | .spaceBetween => "space_between"
  all := [.start, .center, .finish, .spaceBetween]
  find_word a := by cases a <;> rfl

/-- Space between the edge of a container and its items. -/
structure Padding where
  top : Float
  right : Float
  bottom : Float
  left : Float
deriving BEq

namespace Padding

/-- The same space on all sides. -/
def uniform (v : Float) : Padding := ⟨v, v, v, v⟩

/-- One value for left and right, one for top and bottom. -/
def symmetric (horizontal vertical : Float) : Padding :=
  ⟨vertical, horizontal, vertical, horizontal⟩

/-- No space at all. -/
def none : Padding := uniform 0.0

/-- Whether there is no space on any side. -/
def isZero (p : Padding) : Bool :=
  p.top == 0.0 && p.right == 0.0 && p.bottom == 0.0 && p.left == 0.0

/-- Whether all sides are equal. -/
def isUniform (p : Padding) : Bool :=
  p.top == p.right && p.right == p.bottom && p.bottom == p.left

/-- Whether opposite sides are equal. -/
def isSymmetric (p : Padding) : Bool :=
  p.left == p.right && p.top == p.bottom

end Padding

/-- How a container lets its items flow. -/
structure Flow where
  direction : Direction
  /-- The space between neighbours. -/
  gap : Float
  padding : Padding
  distribution : Distribution
  alignment : Alignment
  /-- Whether items that do not fit go to a further line. -/
  wraps : Bool
deriving BEq

/-- A flow in a direction, packed at the start without any space. -/
def Flow.along (direction : Direction) : Flow :=
  ⟨direction, 0.0, .none, .start, .start, false⟩

/-- How a node arranges its children. -/
inductive Mode where
  | flow (flow : Flow)
  /-- By their offsets from the top left corner. -/
  | absolute
deriving BEq

/-- The flow of a mode, if it is one. -/
def Mode.flow? : Mode → Option Flow
  | flow f => some f
  | absolute => none

/-- The size of a node on one axis. -/
inductive Extent where
  /-- The measured size. -/
  | fixed (size : Float)
  /-- As small as the contents allow. -/
  | hug
  /-- All the space that the parent has to give. -/
  | fill
deriving BEq

namespace Extent

/-- Whether the node takes the space of its parent. -/
def isFill : Extent → Bool
  | fill => true
  | _ => false

/-- Whether the node shrinks to its contents. -/
def isHug : Extent → Bool
  | hug => true
  | _ => false

/-- The measured size, if that is the size. -/
def fixed? : Extent → Option Float
  | fixed v => some v
  | _ => none

end Extent

/-- The size of a node on both axes. -/
structure Sizing where
  horizontal : Extent
  vertical : Extent
deriving BEq

namespace Sizing

/-- The extent along a direction. -/
def along (s : Sizing) : Direction → Extent
  | .horizontal => s.horizontal
  | .vertical => s.vertical

/-- The extent across a direction. -/
def across (s : Sizing) : Direction → Extent
  | .horizontal => s.vertical
  | .vertical => s.horizontal

end Sizing

/-- How a node is placed. -/
inductive Placement where
  /-- It is a root of the selection. -/
  | root
  /-- By the flow of its parent. -/
  | flow
  /-- At an offset from the top left corner of its parent. -/
  | absolute (left top : Float)
deriving BEq

/-- Whether a node is placed at an offset. -/
def Placement.isAbsolute : Placement → Bool
  | absolute _ _ => true
  | _ => false

/-- The layout of a node. -/
structure Layout where
  mode : Mode
  sizing : Sizing
  placement : Placement
deriving BEq

namespace Layout

/-- The flow of the children, if they flow. -/
def flow? (l : Layout) : Option Flow := l.mode.flow?

end Layout

end Handoff.Design
