import Handoff.Design.Node

/-!
# Designs as JSON

Designs are written with snake-case names.  No field has a default; one that may have no
value may be missing.

A sum type is written in one of two ways: with a tag among the fields (kinds, fills,
effects and modes), or as the name of the case with its value (extents, placements and
corner radii).  `tagged?` and `caseOf?` are the readers of the two.
-/

namespace Handoff.Design

open Json (Decoder Fields fields?)

/-! ## Sum types -/

/-- A value of an enumeration. -/
def word? {α : Type} [Enumeration α] : Decoder α := Enumeration.ofJson?

/-- The JSON of a value of an enumeration. -/
def wordJson {α : Type} [Enumeration α] (a : α) : Json := Enumeration.toJson a

/-- An object with a tag in front of its fields. -/
def withTag (tagName tag : String) (entries : List (String × Json)) : Json :=
  .obj ((tagName, .str tag) :: entries)

/-- The tag of a value and the value itself; in an array the tag comes first. -/
def tagged? (tagName : String) : Decoder (String × Json)
  | .obj entries => do
    let tag ← (entries.lookup tagName).bind Json.text?
    return (tag, .obj entries)
  | .arr (tag :: rest) => do
    let tag ← Json.text? tag
    return (tag, .arr rest)
  | _ => none

/-- A case without fields. -/
def bare? {α : Type} (a : α) : Decoder α
  | .obj _ => some a
  | .arr [] => some a
  | _ => none

/-- The case that a value is written with, and what is written for it. -/
def caseOf? : Decoder (String × Json)
  | .str name => some (name, .null)
  | .obj [(name, value)] => some (name, value)
  | _ => none

/-- A case without a value. -/
def noValue? {α : Type} (a : α) : Decoder α
  | .null => some a
  | _ => none

/-! ## Styles -/

namespace ColorRef

/-- The color and its palette entry. -/
def toJson (c : ColorRef) : Json :=
  .obj [("color", c.color.toJson), ("palette", .ofOption Palette.Match.toJson c.palette)]

/-- The color is needed. -/
def ofJson? : Decoder ColorRef := fun json => do
  let f ← fields? ["color", "palette"] json
  let color ← f.required "color" Color.ofJson?
  let palette ← f.optional "palette" Palette.Match.ofJson?
  return ⟨color, palette⟩

end ColorRef

namespace GradientStop

/-- Position and color. -/
def toJson (s : GradientStop) : Json :=
  .obj [("position", .double s.position), ("color", s.color.toJson)]

/-- Both fields are needed. -/
def ofJson? : Decoder GradientStop := fun json => do
  let f ← fields? ["position", "color"] json
  let position ← f.required "position" Json.double?
  let color ← f.required "color" ColorRef.ofJson?
  return ⟨position, color⟩

end GradientStop

namespace Fill

/-- A fill tagged by its type. -/
def toJson : Fill → Json
  | solid color => withTag "type" "solid" [("color", color.toJson)]
  | linearGradient angle stops =>
    withTag "type" "linear_gradient"
      [("angle", .double angle), ("stops", .ofList GradientStop.toJson stops)]
  | image imageRef scaleMode =>
    withTag "type" "image" [("image_ref", .str imageRef), ("scale_mode", wordJson scaleMode)]

/-- The fill of a tag. -/
def ofJson? : Decoder Fill := fun json => do
  let (tag, content) ← tagged? "type" json
  match tag with
  | "solid" =>
    let f ← fields? ["color"] content
    let color ← f.required "color" ColorRef.ofJson?
    return solid color
  | "linear_gradient" =>
    let f ← fields? ["angle", "stops"] content
    let angle ← f.required "angle" Json.double?
    let stops ← f.required "stops" (Json.list? GradientStop.ofJson?)
    return linearGradient angle stops
  | "image" =>
    let f ← fields? ["image_ref", "scale_mode"] content
    let imageRef ← f.required "image_ref" Json.text?
    let scaleMode ← f.required "scale_mode" word?
    return image imageRef scaleMode
  | _ => none

end Fill

namespace Paint

/-- Fill, opacity and blend mode. -/
def toJson (p : Paint) : Json :=
  .obj [("kind", p.fill.toJson), ("opacity", .double p.opacity),
    ("blend_mode", wordJson p.blendMode)]

/-- All fields are needed. -/
def ofJson? : Decoder Paint := fun json => do
  let f ← fields? ["kind", "opacity", "blend_mode"] json
  let fill ← f.required "kind" Fill.ofJson?
  let opacity ← f.required "opacity" Json.double?
  let blendMode ← f.required "blend_mode" word?
  return ⟨fill, opacity, blendMode⟩

end Paint

namespace Stroke

/-- Weight and alignment. -/
def toJson (s : Stroke) : Json := .obj [("weight", .double s.weight), ("align", wordJson s.align)]

/-- Both fields are needed. -/
def ofJson? : Decoder Stroke := fun json => do
  let f ← fields? ["weight", "align"] json
  let weight ← f.required "weight" Json.double?
  let align ← f.required "align" word?
  return ⟨weight, align⟩

end Stroke

namespace CornerRadius

/-- The name of the case with its radii. -/
def toJson : CornerRadius → Json
  | none => .str "none"
  | uniform radius => .obj [("uniform", .double radius)]
  | perCorner tl tr br bl => .obj [("per_corner", .ofList .double [tl, tr, br, bl])]

/-- Exactly four radii where the corners differ. -/
def ofJson? : Decoder CornerRadius := fun json => do
  match ← caseOf? json with
  | ("none", value) => noValue? none value
  | ("uniform", value) => (Json.double? value).map uniform
  | ("per_corner", value) =>
    match ← Json.list? Json.double? value with
    | [tl, tr, br, bl] => some (perCorner tl tr br bl)
    | _ => .none
  | _ => .none

end CornerRadius

namespace Shadow

/-- The names of the fields of a shadow. -/
def fieldNames : List String := ["color", "offset_x", "offset_y", "blur", "spread"]

/-- The fields of a shadow. -/
def entries (s : Shadow) : List (String × Json) :=
  [("color", s.color.toJson), ("offset_x", .double s.offsetX), ("offset_y", .double s.offsetY),
    ("blur", .double s.blur), ("spread", .double s.spread)]

/-- All fields are needed. -/
def ofJson? : Decoder Shadow := fun json => do
  let f ← fields? fieldNames json
  let color ← f.required "color" ColorRef.ofJson?
  let offsetX ← f.required "offset_x" Json.double?
  let offsetY ← f.required "offset_y" Json.double?
  let blur ← f.required "blur" Json.double?
  let spread ← f.required "spread" Json.double?
  return ⟨color, offsetX, offsetY, blur, spread⟩

end Shadow

namespace Effect

/-- An effect tagged by its type. -/
def toJson : Effect → Json
  | dropShadow shadow => withTag "type" "drop_shadow" shadow.entries
  | innerShadow shadow => withTag "type" "inner_shadow" shadow.entries
  | layerBlur radius => withTag "type" "layer_blur" [("radius", .double radius)]
  | backgroundBlur radius => withTag "type" "background_blur" [("radius", .double radius)]

/-- The radius of a blur. -/
def radius? : Decoder Float := fun json => do
  let f ← fields? ["radius"] json
  f.required "radius" Json.double?

/-- The effect of a tag. -/
def ofJson? : Decoder Effect := fun json => do
  let (tag, content) ← tagged? "type" json
  match tag with
  | "drop_shadow" => (Shadow.ofJson? content).map dropShadow
  | "inner_shadow" => (Shadow.ofJson? content).map innerShadow
  | "layer_blur" => (radius? content).map layerBlur
  | "background_blur" => (radius? content).map backgroundBlur
  | _ => none

end Effect

namespace Typography

/-- All fields of a typography. -/
def toJson (t : Typography) : Json :=
  .obj [
    ("family", .str t.family),
    ("weight", .int t.weight),
    ("italic", .bool t.italic),
    ("size", .double t.size),
    ("line_height", .ofOption .double t.lineHeight),
    ("letter_spacing", .double t.letterSpacing),
    ("align_horizontal", wordJson t.align),
    ("align_vertical", wordJson t.alignVertical),
    ("text_case", wordJson t.textCase),
    ("decoration", wordJson t.decoration)]

/-- The line height may be missing. -/
def ofJson? : Decoder Typography := fun json => do
  let f ← fields?
    ["family", "weight", "italic", "size", "line_height", "letter_spacing",
      "align_horizontal", "align_vertical", "text_case", "decoration"] json
  let family ← f.required "family" Json.text?
  let weight ← f.required "weight" (Json.natUpTo? 65535)
  let italic ← f.required "italic" Json.bool?
  let size ← f.required "size" Json.double?
  let lineHeight ← f.optional "line_height" Json.double?
  let letterSpacing ← f.required "letter_spacing" Json.double?
  let align ← f.required "align_horizontal" word?
  let alignVertical ← f.required "align_vertical" word?
  let textCase ← f.required "text_case" word?
  let decoration ← f.required "decoration" word?
  return {
    family, weight, italic, size, lineHeight, letterSpacing, align, alignVertical, textCase,
    decoration }

end Typography

namespace TextStyle

/-- Characters and typography. -/
def toJson (t : TextStyle) : Json :=
  .obj [("characters", .str t.characters), ("typography", t.typography.toJson)]

/-- Both fields are needed. -/
def ofJson? : Decoder TextStyle := fun json => do
  let f ← fields? ["characters", "typography"] json
  let characters ← f.required "characters" Json.text?
  let typography ← f.required "typography" Typography.ofJson?
  return ⟨characters, typography⟩

end TextStyle

namespace Style

/-- All fields of a style. -/
def toJson (s : Style) : Json :=
  .obj [
    ("fills", .ofList Paint.toJson s.fills),
    ("strokes", .ofList Paint.toJson s.strokes),
    ("stroke", .ofOption Stroke.toJson s.stroke),
    ("effects", .ofList Effect.toJson s.effects),
    ("corner_radius", s.cornerRadius.toJson),
    ("opacity", .double s.opacity),
    ("clips_content", .bool s.clipsContent),
    ("text", .ofOption TextStyle.toJson s.text)]

/-- Stroke and text may be missing. -/
def ofJson? : Decoder Style := fun json => do
  let f ← fields?
    ["fills", "strokes", "stroke", "effects", "corner_radius", "opacity", "clips_content",
      "text"] json
  let fills ← f.required "fills" (Json.list? Paint.ofJson?)
  let strokes ← f.required "strokes" (Json.list? Paint.ofJson?)
  let stroke ← f.optional "stroke" Stroke.ofJson?
  let effects ← f.required "effects" (Json.list? Effect.ofJson?)
  let cornerRadius ← f.required "corner_radius" CornerRadius.ofJson?
  let opacity ← f.required "opacity" Json.double?
  let clipsContent ← f.required "clips_content" Json.bool?
  let text ← f.optional "text" TextStyle.ofJson?
  return { fills, strokes, stroke, effects, cornerRadius, opacity, clipsContent, text }

end Style

/-! ## Layouts -/

namespace Padding

/-- The four sides. -/
def toJson (p : Padding) : Json :=
  .obj [("top", .double p.top), ("right", .double p.right), ("bottom", .double p.bottom),
    ("left", .double p.left)]

/-- All sides are needed. -/
def ofJson? : Decoder Padding := fun json => do
  let f ← fields? ["top", "right", "bottom", "left"] json
  let top ← f.required "top" Json.double?
  let right ← f.required "right" Json.double?
  let bottom ← f.required "bottom" Json.double?
  let left ← f.required "left" Json.double?
  return ⟨top, right, bottom, left⟩

end Padding

namespace Flow

/-- The names of the fields of a flow. -/
def fieldNames : List String :=
  ["direction", "gap", "padding", "distribution", "alignment", "wrap"]

/-- The fields of a flow. -/
def entries (f : Flow) : List (String × Json) :=
  [("direction", wordJson f.direction), ("gap", .double f.gap), ("padding", f.padding.toJson),
    ("distribution", wordJson f.distribution), ("alignment", wordJson f.alignment),
    ("wrap", .bool f.wraps)]

/-- A flow on its own. -/
def toJson (f : Flow) : Json := .obj f.entries

/-- All fields are needed. -/
def ofJson? : Decoder Flow := fun json => do
  let f ← fields? fieldNames json
  let direction ← f.required "direction" word?
  let gap ← f.required "gap" Json.double?
  let padding ← f.required "padding" Padding.ofJson?
  let distribution ← f.required "distribution" word?
  let alignment ← f.required "alignment" word?
  let wraps ← f.required "wrap" Json.bool?
  return { direction, gap, padding, distribution, alignment, wraps }

end Flow

namespace Mode

/-- A mode tagged by its name. -/
def toJson : Mode → Json
  | flow f => withTag "mode" "flow" f.entries
  | absolute => withTag "mode" "absolute" []

/-- The mode of a tag. -/
def ofJson? : Decoder Mode := fun json => do
  let (tag, content) ← tagged? "mode" json
  match tag with
  | "flow" => (Flow.ofJson? content).map flow
  | "absolute" => bare? absolute content
  | _ => none

end Mode

namespace Extent

/-- The name of the case, with the size if it is fixed. -/
def toJson : Extent → Json
  | fixed v => .obj [("fixed", .double v)]
  | hug => .str "hug"
  | fill => .str "fill"

/-- The extent of a case. -/
def ofJson? : Decoder Extent := fun json => do
  match ← caseOf? json with
  | ("fixed", value) => (Json.double? value).map fixed
  | ("hug", value) => noValue? hug value
  | ("fill", value) => noValue? fill value
  | _ => none

end Extent

namespace Sizing

/-- The two extents. -/
def toJson (s : Sizing) : Json :=
  .obj [("horizontal", s.horizontal.toJson), ("vertical", s.vertical.toJson)]

/-- Both extents are needed. -/
def ofJson? : Decoder Sizing := fun json => do
  let f ← fields? ["horizontal", "vertical"] json
  let horizontal ← f.required "horizontal" Extent.ofJson?
  let vertical ← f.required "vertical" Extent.ofJson?
  return ⟨horizontal, vertical⟩

end Sizing

namespace Placement

/-- The name of the case, with the offset if there is one. -/
def toJson : Placement → Json
  | root => .str "root"
  | flow => .str "flow"
  | absolute left top =>
    .obj [("absolute", .obj [("left", .double left), ("top", .double top)])]

/-- The placement of a case. -/
def ofJson? : Decoder Placement := fun json => do
  match ← caseOf? json with
  | ("root", value) => noValue? root value
  | ("flow", value) => noValue? flow value
  | ("absolute", value) =>
    let f ← fields? ["left", "top"] value
    let left ← f.required "left" Json.double?
    let top ← f.required "top" Json.double?
    return absolute left top
  | _ => none

end Placement

namespace Layout

/-- Mode, sizing and placement. -/
def toJson (l : Layout) : Json :=
  .obj [("mode", l.mode.toJson), ("sizing", l.sizing.toJson),
    ("placement", l.placement.toJson)]

/-- All fields are needed. -/
def ofJson? : Decoder Layout := fun json => do
  let f ← fields? ["mode", "sizing", "placement"] json
  let mode ← f.required "mode" Mode.ofJson?
  let sizing ← f.required "sizing" Sizing.ofJson?
  let placement ← f.required "placement" Placement.ofJson?
  return ⟨mode, sizing, placement⟩

end Layout

/-! ## Nodes -/

namespace Kind

/-- A kind tagged by its name. -/
def toJson : Kind → Json
  | container => withTag "kind" "container" []
  | text => withTag "kind" "text" []
  | vector shape => withTag "kind" "vector" [("shape", wordJson shape)]
  | image => withTag "kind" "image" []
  | group => withTag "kind" "group" []
  | component => withTag "kind" "instance" []

/-- The kind of a tag. -/
def ofJson? : Decoder Kind := fun json => do
  let (tag, content) ← tagged? "kind" json
  match tag with
  | "container" => bare? container content
  | "text" => bare? text content
  | "vector" =>
    let f ← fields? ["shape"] content
    let shape ← f.required "shape" word?
    return vector shape
  | "image" => bare? image content
  | "group" => bare? group content
  | "instance" => bare? component content
  | _ => none

end Kind

namespace Geometry

/-- Position, size and rotation. -/
def toJson (g : Geometry) : Json :=
  .obj [("x", .double g.x), ("y", .double g.y), ("width", .double g.width),
    ("height", .double g.height), ("rotation", .double g.rotation)]

/-- All fields are needed. -/
def ofJson? : Decoder Geometry := fun json => do
  let f ← fields? ["x", "y", "width", "height", "rotation"] json
  let x ← f.required "x" Json.double?
  let y ← f.required "y" Json.double?
  let width ← f.required "width" Json.double?
  let height ← f.required "height" Json.double?
  let rotation ← f.required "rotation" Json.double?
  return ⟨x, y, width, height, rotation⟩

end Geometry

namespace Box

/-- The fields of a box. -/
def entries (b : Box) : List (String × Json) :=
  [("id", .str b.id),
    ("kind", b.kind.toJson),
    ("name", .ofOption .str b.name),
    ("unique_name", .str b.uniqueName),
    ("geometry", b.geometry.toJson),
    ("style", b.style.toJson),
    ("layout", b.layout.toJson),
    ("unsupported_kind", .ofOption .str b.unsupportedType)]

/-- Name and unsupported type may be missing. -/
def ofFields? (f : Fields) : Option Box := do
  let id ← f.required "id" Json.text?
  let kind ← f.required "kind" Kind.ofJson?
  let name ← f.optional "name" Json.text?
  let uniqueName ← f.required "unique_name" Json.text?
  let geometry ← f.required "geometry" Geometry.ofJson?
  let style ← f.required "style" Style.ofJson?
  let layout ← f.required "layout" Layout.ofJson?
  let unsupportedType ← f.optional "unsupported_kind" Json.text?
  return { id, kind, name, uniqueName, geometry, style, layout, unsupportedType }

end Box

namespace Node

mutual

/-- The fields of the box, then the children. -/
def toJson : Node → Json
  | mk box children => .obj (box.entries ++ [("children", .arr (listToJson children))])

/-- The nodes of a list one by one. -/
def listToJson : List Node → List Json
  | [] => []
  | n :: rest => n.toJson :: listToJson rest

end

/-- The names of the fields of a node; the children come last. -/
def fieldNames : List String :=
  ["id", "kind", "name", "unique_name", "geometry", "style", "layout", "unsupported_kind",
    "children"]

mutual

/-- A node and all below it. -/
def ofJson? : Json → Option Node
  | .obj entries => do
    let box ← Box.ofFields? ⟨entries, true⟩
    let children ← childrenOfEntries? entries
    return mk box children
  | .arr items => do
    let f ← fields? fieldNames (.arr items)
    let box ← Box.ofFields? f
    let children ← childrenOfItems? 8 items
    return mk box children
  | _ => none

/-- The children among the named fields of a node. -/
def childrenOfEntries? : List (String × Json) → Option (List Node)
  | [] => none
  | (name, value) :: rest =>
    if name = "children" then
      match value with
      | .arr items => listOfJson? items
      | _ => none
    else childrenOfEntries? rest

/-- The children in the item after `skip` others. -/
def childrenOfItems? (skip : Nat) : List Json → Option (List Node)
  | [] => none
  | item :: rest =>
    match skip with
    | 0 =>
      match item with
      | .arr items => listOfJson? items
      | _ => none
    | skip + 1 => childrenOfItems? skip rest

/-- The nodes of an array; none if one of them does not decode. -/
def listOfJson? : List Json → Option (List Node)
  | [] => some []
  | json :: rest => do
    let node ← ofJson? json
    let nodes ← listOfJson? rest
    return node :: nodes

end

/-- A forest as an array of its roots. -/
def forestJson (forest : List Node) : Json := .arr (listToJson forest)

/-- A forest of an array. -/
def forest? : Decoder (List Node)
  | .arr items => listOfJson? items
  | _ => none

end Node

end Handoff.Design
