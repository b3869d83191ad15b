import Handoff.Color.Hex
import Handoff.Color.Perceptual
import Handoff.Palette.Tables
import Handoff.Settings.Basic
import Handoff.Warning

/-!
# Named color systems

A palette lists the named colors of one color system.  `Palette.nearest?` finds the entry
closest to a color and gives its name when the distance is within a tolerance;
the color is rounded to bytes first, so neither alpha nor fractions of a byte matter.
`Palette.listing` gives the entries of a palette that is asked for by name.
-/

namespace Handoff

/-- The known color systems. -/
inductive Palette where
  | tailwind
  | material
  | swiftUI
deriving DecidableEq, Repr

namespace Palette

/-- A named color. -/
structure Entry where
  /-- The name as the target language writes it. -/
  name : String
  /-- `#rrggbb`. -/
  hex : String
  /-- What is known about the entry besides its name. -/
  info : Option String
deriving DecidableEq, Repr

/-- All palettes. -/
def all : List Palette := [.tailwind, .material, .swiftUI]

/-- The name of a color system. -/
def name : Palette → String
  | tailwind => "Tailwind"
  | material => "Material"
  | swiftUI => "SwiftUI"

/-- The palette of a name, whatever its letter case. -/
def ofName? (name : String) : Option Palette :=
  all.find? fun p => p.name.toLower == name.toLower

/-- The palette whose names a target writes. -/
def ofFramework : Framework → Palette
  | .html | .tailwind => tailwind
  | .flutter => material
  | .swiftUI => swiftUI

/-- An entry from its name and digits. -/
def entry (name digits : String) (info : Option String) : Entry :=
  ⟨name, "#" ++ digits, info⟩

/-- The shades of a family, named `family-shade`. -/
def familyEntries (family : String × List String) : List Entry :=
  shades.zipWith (fun shade digits => entry (family.1 ++ "-" ++ toString shade) digits none)
    family.2

/-- Black and white are no primaries. -/
def materialInfo (name : String) : Option String :=
  if name = "black" ∨ name = "white" then none else some "Material 500"

/-- The entries of a palette in order. -/
def entries : Palette → List Entry
  | tailwind =>
    entry "black" "000000" none :: entry "white" "ffffff" none :: families.flatMap familyEntries
  | material =>
    materialColors.map fun (name, digits) =>
      entry ("Colors." ++ name) digits (materialInfo name)
  | swiftUI => systemColors.map fun (name, digits) => entry ("Color." ++ name) digits none

/-! ## Matching -/

/-- An entry ready for matching. -/
structure Swatch where
  entry : Entry
  color : Color
  lab : Lab

/-- The swatch of an entry whose digits are a color. -/
def swatch? (e : Entry) : Option Swatch :=
  (Color.ofHex? e.hex).map fun c => ⟨e, c, c.lab⟩

/-- The swatches of the Tailwind palette. -/
def tailwindSwatches : List Swatch := tailwind.entries.filterMap swatch?

/-- The swatches of the Material palette. -/
def materialSwatches : List Swatch := material.entries.filterMap swatch?

/-- The swatches of the SwiftUI palette. -/
def swiftUISwatches : List Swatch := swiftUI.entries.filterMap swatch?

/-- The swatches of a palette. -/
def swatches : Palette → List Swatch
  | tailwind => tailwindSwatches
  | material => materialSwatches
  | swiftUI => swiftUISwatches

/-- The swatch nearer to `lab`; on a tie, or without an order, `best` stays. -/
def nearer (lab : Lab) (best : Option (Swatch × Float32)) (s : Swatch) :
    Option (Swatch × Float32) :=
  let distance := lab.distance s.lab
  match best with
  | none => some (s, distance)
  | some (_, least) => if distance < least then some (s, distance) else best

/-- A palette entry found for a color. -/
structure Match where
  name : String
  /-- Whether entry and color have the same bytes. -/
  exact : Bool
deriving DecidableEq, Repr

/-- The match of the first entry at the least distance from `c`, if that is within the
tolerance. -/
def nearest? (p : Palette) (c : Color) (tolerance : Float) : Option Match :=
  let q := c.bytes
  let lab := (Color.ofBytes q.r q.g q.b).lab
  match p.swatches.foldl (nearer lab) none with
  | none => none
  | some (s, distance) =>
    if Decimal.widen distance > tolerance then none
    else
      let t := s.color.bytes
      some ⟨s.entry.name, decide (q.r = t.r ∧ q.g = t.g ∧ q.b = t.b)⟩

/-! ## Listing -/

/-- The entries of the palette of a name, whatever its letter case. -/
def listing (name : String) : Except ConversionError (List Entry) :=
  match ofName? name with
  | some p => .ok p.entries
  | none => .error (.unknownPalette name)

/-- An entry on a line: hexadecimal text, name, and what else is known. -/
def Entry.line (e : Entry) : String :=
  e.hex ++ "  " ++ e.name ++
    match e.info with
    | some info => "  (" ++ info ++ ")"
    | none => ""

/-! ## JSON -/

/-- An entry with its hexadecimal text first. -/
def Entry.toJson (e : Entry) : Json :=
  .obj [("hex", .str e.hex), ("name", .str e.name), ("meta", .ofOption .str e.info)]

/-- A match, or `null`. -/
def Match.toJson (m : Match) : Json :=
  .obj [("name", .str m.name), ("exact", .bool m.exact)]

/-- A match by name or in order. -/
def Match.ofJson? : Json.Decoder Match := fun json => do
  let f ← Json.fields? ["name", "exact"] json
  let name ← f.required "name" Json.text?
  let exact ← f.required "exact" Json.bool?
  return ⟨name, exact⟩

end Palette

end Handoff
