import Handoff.Decimal.Binary

/-!
# Settings

What a conversion may be told: the target to write, how its code is laid out, and how
closely a color has to match a palette entry to be written by name.
-/

namespace Handoff

/-- The languages that a selection can be converted to. -/
inductive Framework where
  | html
  | tailwind
  | flutter
  | swiftUI
deriving DecidableEq, Repr

namespace Framework

/-- All targets, in the order in which they are offered. -/
def all : List Framework := [.html, .tailwind, .flutter, .swiftUI]

/-- The name of a target. -/
def name : Framework → String
  | html => "HTML"
  | tailwind => "Tailwind"
  | flutter => "Flutter"
  | swiftUI => "SwiftUI"

/-- The target of a name, whatever its letter case. -/
def ofName? (name : String) : Option Framework :=
  all.find? fun f => f.name.toLower == name.toLower

end Framework

/-- How much code a widget target writes. -/
inductive Scope where
  /-- Only the widgets of the selection. -/
  | snippet
  /-- The widgets inside an application that runs. -/
  | full
deriving DecidableEq, Repr

/-- The settings of one conversion. -/
structure Settings where
  framework : Framework
  /-- Whether markup is written with JSX attributes. -/
  jsx : Bool
  /-- Whether an inferred auto-layout counts for a frame without one of its own. -/
  optimizeLayout : Bool
  /-- Whether layer names are written into the code. -/
  showLayerNames : Bool
  /-- Whether styles stand on the elements instead of in a style sheet. -/
  inlineStyle : Bool
  /-- Whether a root fills the width of its surroundings. -/
  responsiveRoot : Bool
  flutterScope : Scope
  swiftUIScope : Scope
  /-- Whether lengths snap to the steps of the Tailwind scale. -/
  roundTailwindValues : Bool
  /-- Whether colors snap to palette entries from farther away. -/
  roundTailwindColors : Bool
  /-- The distance up to which a color is called by a palette name. -/
  colorTolerance : Float
deriving BEq

namespace Settings

/-- The settings in force when nothing else is said. -/
def defaults : Settings where
  framework := .html
  jsx := false
  optimizeLayout := true
  showLayerNames := false
  inlineStyle := true
  responsiveRoot := false
  flutterScope := .snippet
  swiftUIScope := .snippet
  roundTailwindValues := false
  roundTailwindColors := false
  colorTolerance := 2.3

/-- The least tolerance when colors snap. -/
def snappingTolerance : Float := 10.0

/-- The tolerance in force. -/
def tolerance (s : Settings) : Float :=
  if s.roundTailwindColors then Decimal.larger s.colorTolerance snappingTolerance
  else s.colorTolerance

end Settings

end Handoff
