import Handoff.Scene.Basic

/-!
# Scenes as JSON

Scenes are written with the field names of the design tool, in camel case.  Every field
of a node has a default, so a node may be written in part; `null` is only read where a
field may have no value.  The fields of a node's auto-layout stand among its own.

A node must be an object; all other records may also be written as arrays.
-/

namespace Handoff.Scene

open Json (Decoder Fields fields?)

/-- A value of a vocabulary. -/
def word? {α : Type} [Vocabulary α] : Decoder α := Vocabulary.ofJson?

/-- The JSON of a value of a vocabulary. -/
def wordJson {α : Type} [Vocabulary α] (a : α) : Json := Vocabulary.toJson a

namespace Point

/-- The coordinates by name. -/
def toJson (p : Point) : Json := .obj [("x", .double p.x), ("y", .double p.y)]

/-- A coordinate that is missing is zero. -/
def ofJson? : Decoder Point := fun json => do
  let f ← fields? ["x", "y"] json
  let x ← f.withDefault "x" 0.0 Json.double?
  let y ← f.withDefault "y" 0.0 Json.double?
  return ⟨x, y⟩

end Point

namespace ColorStop

/-- Position and color. -/
def toJson (s : ColorStop) : Json :=
  .obj [("position", .double s.position), ("color", s.color.toJson)]

/-- Both fields are needed. -/
def ofJson? : Decoder ColorStop := fun json => do
  let f ← fields? ["position", "color"] json
  let position ← f.required "position" Json.double?
  let color ← f.required "color" Color.ofJson?
  return ⟨position, color⟩

end ColorStop

namespace Paint

/-- All fields of a paint. -/
def toJson (p : Paint) : Json :=
  .obj [
    ("type", wordJson p.paintType),
    ("visible", .bool p.visible),
    ("opacity", .double p.opacity),
    ("blendMode", wordJson p.blendMode),
    ("color", .ofOption Color.toJson p.color),
    ("gradientStops", .ofList ColorStop.toJson p.gradientStops),
    ("gradientHandlePositions", .ofList Point.toJson p.gradientHandles),
    ("imageHash", .ofOption .str p.imageHash),
    ("scaleMode", wordJson p.scaleMode)]

/-- Every field has a default. -/
def ofJson? : Decoder Paint := fun json => do
  let f ← fields?
    ["type", "visible", "opacity", "blendMode", "color", "gradientStops",
      "gradientHandlePositions", "imageHash", "scaleMode"] json
  let paintType ← f.withDefault "type" .solid word?
  let visible ← f.withDefault "visible" true Json.bool?
  let opacity ← f.withDefault "opacity" 1.0 Json.double?
  let blendMode ← f.withDefault "blendMode" .normal word?
  let color ← f.withDefault "color" none (Json.nullable? Color.ofJson?)
  let gradientStops ← f.withDefault "gradientStops" [] (Json.list? ColorStop.ofJson?)
  let gradientHandles ←
    f.withDefault "gradientHandlePositions" [] (Json.list? Point.ofJson?)
  let imageHash ← f.withDefault "imageHash" none (Json.nullable? Json.text?)
  let scaleMode ← f.withDefault "scaleMode" .fill word?
  return {
    paintType, visible, opacity, blendMode, color, gradientStops, gradientHandles,
    imageHash, scaleMode }

end Paint

namespace Effect

/-- All fields of an effect. -/
def toJson (e : Effect) : Json :=
  .obj [
    ("type", wordJson e.effectType),
    ("visible", .bool e.visible),
    ("radius", .double e.radius),
    ("color", .ofOption Color.toJson e.color),
    ("offset", e.offset.toJson),
    ("spread", .double e.spread)]

/-- Every field has a default. -/
def ofJson? : Decoder Effect := fun json => do
  let f ← fields? ["type", "visible", "radius", "color", "offset", "spread"] json
  let effectType ← f.withDefault "type" .dropShadow word?
  let visible ← f.withDefault "visible" true Json.bool?
  let radius ← f.withDefault "radius" 0.0 Json.double?
  let color ← f.withDefault "color" none (Json.nullable? Color.ofJson?)
  let offset ← f.withDefault "offset" .zero Point.ofJson?
  let spread ← f.withDefault "spread" 0.0 Json.double?
  return { effectType, visible, radius, color, offset, spread }

end Effect

namespace AutoLayout

/-- The names of the fields of an auto-layout. -/
def fieldNames : List String :=
  ["layoutMode", "layoutWrap", "paddingLeft", "paddingRight", "paddingTop",
    "paddingBottom", "itemSpacing", "primaryAxisAlignItems", "counterAxisAlignItems"]

/-- The fields of an auto-layout, to stand alone or among those of a node. -/
def entries (a : AutoLayout) : List (String × Json) :=
  [("layoutMode", wordJson a.mode),
    ("layoutWrap", wordJson a.wrap),
    ("paddingLeft", .double a.paddingLeft),
    ("paddingRight", .double a.paddingRight),
    ("paddingTop", .double a.paddingTop),
    ("paddingBottom", .double a.paddingBottom),
    ("itemSpacing", .double a.itemSpacing),
    ("primaryAxisAlignItems", wordJson a.primaryAlign),
    ("counterAxisAlignItems", wordJson a.counterAlign)]

/-- An auto-layout on its own. -/
def toJson (a : AutoLayout) : Json := .obj a.entries

/-- The auto-layout among given fields; every field has a default. -/
def ofFields? (f : Fields) : Option AutoLayout := do
  let mode ← f.withDefault "layoutMode" .none word?
  let wrapping ← f.withDefault "layoutWrap" .noWrap word?
  let paddingLeft ← f.withDefault "paddingLeft" 0.0 Json.double?
  let paddingRight ← f.withDefault "paddingRight" 0.0 Json.double?
  let paddingTop ← f.withDefault "paddingTop" 0.0 Json.double?
  let paddingBottom ← f.withDefault "paddingBottom" 0.0 Json.double?
  let itemSpacing ← f.withDefault "itemSpacing" 0.0 Json.double?
  let primaryAlign ← f.withDefault "primaryAxisAlignItems" .min word?
  let counterAlign ← f.withDefault "counterAxisAlignItems" .min word?
  return {
    mode, wrap := wrapping, paddingLeft, paddingRight, paddingTop, paddingBottom, itemSpacing,
    primaryAlign, counterAlign }

/-- An auto-layout on its own. -/
def ofJson? : Decoder AutoLayout := fun json =>
  (fields? fieldNames json).bind ofFields?

end AutoLayout

namespace FontName

/-- Family and style. -/
def toJson (n : FontName) : Json := .obj [("family", .str n.family), ("style", .str n.style)]

/-- A name that is missing is empty. -/
def ofJson? : Decoder FontName := fun json => do
  let f ← fields? ["family", "style"] json
  let family ← f.withDefault "family" "" Json.text?
  let style ← f.withDefault "style" "" Json.text?
  return ⟨family, style⟩

end FontName

namespace LineHeight

/-- Unit and value. -/
def toJson (h : LineHeight) : Json :=
  .obj [("unit", wordJson h.unit), ("value", .double h.value)]

/-- The unit is needed. -/
def ofJson? : Decoder LineHeight := fun json => do
  let f ← fields? ["unit", "value"] json
  let unit ← f.required "unit" word?
  let value ← f.withDefault "value" 0.0 Json.double?
  return ⟨unit, value⟩

end LineHeight

namespace LetterSpacing

/-- Unit and value. -/
def toJson (s : LetterSpacing) : Json :=
  .obj [("unit", wordJson s.unit), ("value", .double s.value)]

/-- The unit is needed. -/
def ofJson? : Decoder LetterSpacing := fun json => do
  let f ← fields? ["unit", "value"] json
  let unit ← f.required "unit" word?
  let value ← f.withDefault "value" 0.0 Json.double?
  return ⟨unit, value⟩

end LetterSpacing

namespace Corners

/-- Four numbers, clockwise from the top left. -/
def toJson (c : Corners) : Json := .ofList .double c.toList

/-- Exactly four numbers. -/
def ofJson? : Decoder Corners := fun json => do
  match ← Json.list? Json.double? json with
  | [a, b, c, d] => some ⟨a, b, c, d⟩
  | _ => none

end Corners

namespace Layer

/-- The fields of a layer without the children. -/
def entries (l : Layer) : List (String × Json) :=
  [("id", .str l.id),
    ("name", .str l.name),
    ("type", .str l.nodeType),
    ("visible", .bool l.visible),
    ("x", .double l.x),
    ("y", .double l.y),
    ("width", .double l.width),
    ("height", .double l.height),
    ("rotation", .double l.rotation),
    ("opacity", .double l.opacity),
    ("blendMode", wordJson l.blendMode),
    ("fills", .ofList Paint.toJson l.fills),
    ("strokes", .ofList Paint.toJson l.strokes),
    ("strokeWeight", .double l.strokeWeight),
    ("strokeAlign", wordJson l.strokeAlign),
    ("effects", .ofList Effect.toJson l.effects),
    ("cornerRadius", .ofOption .double l.cornerRadius),
    ("rectangleCornerRadii", .ofOption Corners.toJson l.cornerRadii),
    ("clipsContent", .bool l.clipsContent)] ++
  l.autoLayout.entries ++
  [("inferredAutoLayout", .ofOption AutoLayout.toJson l.inferredAutoLayout),
    ("layoutSizingHorizontal", .ofOption wordJson l.sizingHorizontal),
    ("layoutSizingVertical", .ofOption wordJson l.sizingVertical),
    ("layoutPositioning", wordJson l.positioning),
    ("layoutGrow", .double l.layoutGrow),
    ("layoutAlign", wordJson l.layoutAlign),
    ("characters", .ofOption .str l.characters),
    ("fontName", .ofOption FontName.toJson l.fontName),
    ("fontSize", .ofOption .double l.fontSize),
    ("fontWeight", .ofOption .double l.fontWeight),
    ("lineHeight", .ofOption LineHeight.toJson l.lineHeight),
    ("letterSpacing", .ofOption LetterSpacing.toJson l.letterSpacing),
    ("textAlignHorizontal", wordJson l.textAlign),
    ("textAlignVertical", wordJson l.textAlignVertical),
    ("textCase", wordJson l.textCase),
    ("textDecoration", wordJson l.textDecoration),
    ("textAutoResize", wordJson l.textAutoResize)]

/-- The layer among given fields; every field has a default. -/
def ofFields? (f : Fields) : Option Layer := do
  let id ← f.withDefault "id" "" Json.text?
  let name ← f.withDefault "name" "" Json.text?
  let nodeType ← f.withDefault "type" "" Json.text?
  let visible ← f.withDefault "visible" true Json.bool?
  let x ← f.withDefault "x" 0.0 Json.double?
  let y ← f.withDefault "y" 0.0 Json.double?
  let width ← f.withDefault "width" 0.0 Json.double?
  let height ← f.withDefault "height" 0.0 Json.double?
  let rotation ← f.withDefault "rotation" 0.0 Json.double?
  let opacity ← f.withDefault "opacity" 1.0 Json.double?
  let blendMode ← f.withDefault "blendMode" .normal word?
  let fills ← f.withDefault "fills" [] (Json.list? Paint.ofJson?)
  let strokes ← f.withDefault "strokes" [] (Json.list? Paint.ofJson?)
  let strokeWeight ← f.withDefault "strokeWeight" 0.0 Json.double?
  let strokeAlign ← f.withDefault "strokeAlign" .inside word?
  let effects ← f.withDefault "effects" [] (Json.list? Effect.ofJson?)
  let cornerRadius ← f.withDefault "cornerRadius" none (Json.nullable? Json.double?)
  let cornerRadii ←
    f.withDefault "rectangleCornerRadii" none (Json.nullable? Corners.ofJson?)
  let clipsContent ← f.withDefault "clipsContent" false Json.bool?
  let autoLayout ← AutoLayout.ofFields? f
  let inferredAutoLayout ←
    f.withDefault "inferredAutoLayout" none (Json.nullable? AutoLayout.ofJson?)
  let sizingHorizontal ← f.withDefault "layoutSizingHorizontal" none (Json.nullable? word?)
  let sizingVertical ← f.withDefault "layoutSizingVertical" none (Json.nullable? word?)
  let positioning ← f.withDefault "layoutPositioning" .auto word?
  let layoutGrow ← f.withDefault "layoutGrow" 0.0 Json.double?
  let layoutAlign ← f.withDefault "layoutAlign" .inherit word?
  let characters ← f.withDefault "characters" none (Json.nullable? Json.text?)
  let fontName ← f.withDefault "fontName" none (Json.nullable? FontName.ofJson?)
  let fontSize ← f.withDefault "fontSize" none (Json.nullable? Json.double?)
  let fontWeight ← f.withDefault "fontWeight" none (Json.nullable? Json.double?)
  let lineHeight ← f.withDefault "lineHeight" none (Json.nullable? LineHeight.ofJson?)
  let letterSpacing ←
    f.withDefault "letterSpacing" none (Json.nullable? LetterSpacing.ofJson?)
  let textAlign ← f.withDefault "textAlignHorizontal" .left word?
  let textAlignVertical ← f.withDefault "textAlignVertical" .top word?
  let textCase ← f.withDefault "textCase" .original word?
  let textDecoration ← f.withDefault "textDecoration" .none word?
  let textAutoResize ← f.withDefault "textAutoResize" .none word?
  return {
    id, name, nodeType, visible, x, y, width, height, rotation, opacity, blendMode, fills,
    strokes, strokeWeight, strokeAlign, effects, cornerRadius, cornerRadii, clipsContent,
    autoLayout, inferredAutoLayout, sizingHorizontal, sizingVertical, positioning,
    layoutGrow, layoutAlign, characters, fontName, fontSize, fontWeight, lineHeight,
    letterSpacing, textAlign, textAlignVertical, textCase, textDecoration,
    textAutoResize }

end Layer

namespace Node

mutual

/-- The fields of the layer, then the children. -/
def toJson : Node → Json
  | mk layer children => .obj (layer.entries ++ [("children", .arr (listToJson children))])

/-- The nodes of a list one by one. -/
def listToJson : List Node → List Json
  | [] => []
  | n :: rest => n.toJson :: listToJson rest

end

mutual

/-- A node and all below it. -/
def ofJson? : Json → Option Node
  | .obj entries => do
    let layer ← Layer.ofFields? ⟨entries, true⟩
    let children ← childrenOfEntries? entries
    return mk layer children
  | _ => none

/-- The children among the fields of a node; none when there is no such field. -/
def childrenOfEntries? : List (String × Json) → Option (List Node)
  | [] => some []
  | (name, value) :: rest =>
    if name = "children" then
      match value with
      | .arr items => listOfJson? items
      | _ => none
    else childrenOfEntries? rest

/-- The nodes of an array; none if one of them does not decode. -/
def listOfJson? : List Json → Option (List Node)
  | [] => some []
  | json :: rest => do
    let node ← ofJson? json
    let nodes ← listOfJson? rest
    return node :: nodes

end

/-- The nodes of a JSON array. -/
def forest? : Json.Decoder (List Node)
  | .arr items => listOfJson? items
  | _ => none

end Node

end Handoff.Scene
