import Handoff.Html.Code
import Handoff.Proofs.Design.Unmatched

/-!
Style sheets and previews of designs without palette matches.

A style sheet writes every color out, so nothing in it depends on what a color may be
called.  There is one lemma for each aspect of a node that `Css.declarations` puts
together: what it says of `n.unmatched` is what it says of `n`.  `Css.declarations_unmatched`
collects them, with the parent taken along as it decides how a node is sized.

From there it goes up to `Html.preview_unmatched`.  A preview asks the settings for nothing
(`Html.preview_congr`), so the previews of two targets are equal whenever their designs are
but for palette matches.
-/

namespace Handoff

/-! ## Nodes without palette matches -/

namespace Design

@[simp] theorem Box.kind_unmatched (b : Box) : b.unmatched.kind = b.kind := rfl

@[simp] theorem Box.name_unmatched (b : Box) : b.unmatched.name = b.name := rfl

@[simp] theorem Box.uniqueName_unmatched (b : Box) : b.unmatched.uniqueName = b.uniqueName := rfl

@[simp] theorem Box.geometry_unmatched (b : Box) : b.unmatched.geometry = b.geometry := rfl

@[simp] theorem Box.layout_unmatched (b : Box) : b.unmatched.layout = b.layout := rfl

@[simp] theorem Box.style_unmatched (b : Box) : b.unmatched.style = b.style.unmatched := rfl

@[simp] theorem Box.placeholder_unmatched (b : Box) : b.unmatched.placeholder = b.placeholder := rfl

@[simp] theorem Box.characters?_unmatched (b : Box) : b.unmatched.characters? = b.characters? := rfl

@[simp] theorem Style.fills_unmatched (s : Style) :
    s.unmatched.fills = s.fills.map Paint.unmatched := rfl

@[simp] theorem Style.strokes_unmatched (s : Style) :
    s.unmatched.strokes = s.strokes.map Paint.unmatched := rfl

@[simp] theorem Style.effects_unmatched (s : Style) :
    s.unmatched.effects = s.effects.map Effect.unmatched := rfl

@[simp] theorem Style.stroke_unmatched (s : Style) : s.unmatched.stroke = s.stroke := rfl

@[simp] theorem Style.cornerRadius_unmatched (s : Style) :
    s.unmatched.cornerRadius = s.cornerRadius := rfl

@[simp] theorem Style.opacity_unmatched (s : Style) : s.unmatched.opacity = s.opacity := rfl

@[simp] theorem Style.clipsContent_unmatched (s : Style) :
    s.unmatched.clipsContent = s.clipsContent := rfl

@[simp] theorem Style.text_unmatched (s : Style) : s.unmatched.text = s.text := rfl

@[simp] theorem Paint.blendMode_unmatched (p : Paint) : p.unmatched.blendMode = p.blendMode := rfl

@[simp] theorem Paint.fill_unmatched (p : Paint) : p.unmatched.fill = p.fill.unmatched := rfl

@[simp] theorem ColorRef.color_unmatched (c : ColorRef) : c.unmatched.color = c.color := rfl

theorem Paint.solid?_unmatched (p : Paint) :
    p.unmatched.solid? = p.solid?.map ColorRef.unmatched := by
  obtain ⟨fill, opacity, blendMode⟩ := p
  cases fill <;> rfl

theorem Style.topSolidStroke?_unmatched (s : Style) :
    s.unmatched.topSolidStroke? = s.topSolidStroke?.map ColorRef.unmatched := by
  simp only [Style.topSolidStroke?, Style.strokes_unmatched, ← List.map_reverse,
    List.findSome?_map, List.map_findSome?, Function.comp_def, Paint.solid?_unmatched]

@[simp] theorem Node.hasAbsoluteChild_unmatched (n : Node) :
    n.unmatched.hasAbsoluteChild = n.hasAbsoluteChild := by
  simp only [Node.hasAbsoluteChild, Node.children_unmatched, List.any_map, Function.comp_def,
    Node.box_unmatched, Box.layout_unmatched]

end Design

/-! ## Declarations -/

namespace Css

open Design (Node Direction Paint)

@[simp] theorem linearGradient_unmatched (angle : Float) (stops : List Design.GradientStop) :
    linearGradient angle (stops.map Design.GradientStop.unmatched) =
      linearGradient angle stops := by
  have written : (stops.map Design.GradientStop.unmatched).map stop = stops.map stop := by
    rw [List.map_map]
    exact List.map_congr_left fun s _ => rfl
  unfold linearGradient
  rw [written]

theorem placement_unmatched (n : Node) : placement n.unmatched = placement n := by
  simp only [placement, Node.box_unmatched, Design.Box.layout_unmatched,
    Node.hasAbsoluteChild_unmatched]

theorem flowAround?_unmatched (parent : Option Node) (n : Node) :
    flowAround? (parent.map Node.unmatched) n.unmatched = flowAround? parent n := by
  simp only [flowAround?, Node.box_unmatched, Design.Box.layout_unmatched, Option.bind_map,
    Function.comp_def]

theorem fixedSize_unmatched (n : Node) (axis : Direction) (v : Float) :
    fixedSize n.unmatched axis v = fixedSize n axis v := by
  simp only [fixedSize, Node.box_unmatched, Design.Box.kind_unmatched, Design.Box.style_unmatched,
    Design.Style.stroke_unmatched]

theorem size_unmatched (parent : Option Node) (n : Node) (axis : Direction) :
    size (parent.map Node.unmatched) n.unmatched axis = size parent n axis := by
  simp only [size, flowAround?_unmatched, fixedSize_unmatched, Node.box_unmatched,
    Design.Box.layout_unmatched]

theorem layer_unmatched (n : Node) (single : Bool) (p : Paint) :
    layer n.unmatched single p.unmatched = layer n single p := by
  unfold layer
  rw [Design.Paint.fill_unmatched]
  cases p.fill with
  | solid color => rfl
  | linearGradient angle stops => exact linearGradient_unmatched angle stops
  | image imageRef scaleMode =>
      simp only [Design.Fill.unmatched, Node.box_unmatched, Design.Box.placeholder_unmatched]

theorem backgroundValue_unmatched (n : Node) (fills : List Paint) :
    backgroundValue n.unmatched (fills.map Paint.unmatched) = backgroundValue n fills := by
  simp only [backgroundValue, ← List.map_reverse, List.map_map, List.length_map,
    Function.comp_def, layer_unmatched]

theorem background_unmatched (n : Node) (fills : List Paint) :
    background n.unmatched (fills.map Paint.unmatched) = background n fills := by
  have blended : (fills.map Paint.unmatched).any blends = fills.any blends := by
    rw [List.any_map]
    rfl
  have modes : ((fills.map Paint.unmatched).reverse.map (blendMode ·.blendMode)) =
      fills.reverse.map (blendMode ·.blendMode) := by
    simp only [← List.map_reverse, List.map_map, Function.comp_def,
      Design.Paint.blendMode_unmatched]
  unfold background
  rw [List.isEmpty_map, backgroundValue_unmatched, blended, modes]
  rcases fills with _ | ⟨first, _ | ⟨second, rest⟩⟩ <;> rfl

theorem textPaint_unmatched (fills : List Paint) :
    textPaint (fills.map Paint.unmatched) = textPaint fills := by
  unfold textPaint
  rw [List.getLast?_map]
  cases fills.getLast? with
  | none => rfl
  | some top =>
      cases fill : top.fill with
      | solid color => simp [fill, Design.Fill.unmatched]
      | linearGradient angle stops => simp [fill, Design.Fill.unmatched]
      | image imageRef scaleMode => simp [fill, Design.Fill.unmatched]

theorem border_unmatched (n : Node) : border n.unmatched = border n := by
  simp only [border, Node.box_unmatched, Design.Box.style_unmatched, Design.Style.stroke_unmatched,
    Design.Style.strokes_unmatched, List.getLast?_map]
  cases n.box.style.stroke with
  | none => rfl
  | some stroke =>
      cases n.box.style.strokes.getLast? with
      | none => rfl
      | some top =>
          cases fill : top.fill with
          | solid color => simp [fill, Design.Fill.unmatched]
          | linearGradient angle stops => simp [fill, Design.Fill.unmatched]
          | image imageRef scaleMode => simp [fill, Design.Fill.unmatched]

theorem text_unmatched (n : Node) (t : Design.TextStyle) : text n.unmatched t = text n t := by
  simp only [text, textBox, Node.box_unmatched, Design.Box.style_unmatched,
    Design.Box.layout_unmatched, Design.Style.fills_unmatched, textPaint_unmatched]

theorem content_unmatched (n : Node) : content n.unmatched = content n := by
  simp only [content, Node.box_unmatched, Design.Box.style_unmatched, Design.Box.kind_unmatched,
    Design.Style.text_unmatched, Design.Style.fills_unmatched,
    Design.Style.topSolidStroke?_unmatched, Option.map_map, Function.comp_def,
    Design.ColorRef.color_unmatched, text_unmatched, background_unmatched, border_unmatched]

theorem corners_unmatched (n : Node) : corners n.unmatched = corners n := by
  simp only [corners, Node.box_unmatched, Design.Box.kind_unmatched, Design.Box.style_unmatched,
    Design.Style.cornerRadius_unmatched]

theorem effects_unmatched (n : Node) : effects n.unmatched = effects n := by
  have blurs : ∀ e : Design.Effect, blur e.unmatched = blur e := by
    intro e
    cases e <;> rfl
  have boxShadows : boxShadow? ∘ Design.Effect.unmatched = boxShadow? := by
    funext e
    cases e <;> rfl
  have textShadows : textShadow? ∘ Design.Effect.unmatched = textShadow? := by
    funext e
    cases e <;> rfl
  simp only [effects, Node.box_unmatched, Design.Box.style_unmatched, Design.Box.kind_unmatched,
    Design.Style.effects_unmatched, List.flatMap_map, List.filterMap_map, blurs, boxShadows,
    textShadows]

theorem finish_unmatched (n : Node) : finish n.unmatched = finish n := by
  simp only [finish, Node.box_unmatched, Design.Box.style_unmatched, Design.Box.geometry_unmatched,
    Design.Style.opacity_unmatched, Design.Style.clipsContent_unmatched]

/-- A node without palette matches has the declarations it had with them. -/
theorem declarations_unmatched (parent : Option Node) (n : Node) :
    declarations (parent.map Node.unmatched) n.unmatched = declarations parent n := by
  unfold declarations
  rw [placement_unmatched, size_unmatched, size_unmatched, content_unmatched, corners_unmatched,
    effects_unmatched, finish_unmatched, Node.box_unmatched, Design.Box.layout_unmatched]

end Css

/-! ## Elements -/

namespace Markup

open Design (Node)

variable {attributes : Attributes} {comments : Bool}

mutual

/-- Where palette matches decide no attribute, they decide nothing of an element. -/
theorem elementOf_unmatched
    (blind : ∀ parent n, attributes (parent.map Node.unmatched) n.unmatched = attributes parent n)
    (parent : Option Node) : ∀ n : Node,
      elementOf attributes comments (parent.map Node.unmatched) n.unmatched =
        elementOf attributes comments parent n
  | .mk box children => by
      have own := blind parent (.mk box children)
      have below := elementsOf_unmatched blind (some (.mk box children)) children
      simp only [Node.unmatched, Node.unmatchedAll_eq_map, Option.map_some] at own below
      simp only [Node.unmatched, Node.unmatchedAll_eq_map, elementOf, own, below, commentOf,
        Design.Box.kind_unmatched, Design.Box.name_unmatched, Design.Box.placeholder_unmatched,
        Design.Box.characters?_unmatched]

/-- Where palette matches decide no attribute, they decide nothing of a list of elements. -/
theorem elementsOf_unmatched
    (blind : ∀ parent n, attributes (parent.map Node.unmatched) n.unmatched = attributes parent n)
    (parent : Option Node) : ∀ nodes : List Node,
      elementsOf attributes comments (parent.map Node.unmatched) (nodes.map Node.unmatched) =
        elementsOf attributes comments parent nodes
  | [] => by
      simp only [List.map_nil, elementsOf]
  | n :: rest => by
      simp only [List.map_cons, elementsOf, elementOf_unmatched blind parent n,
        elementsOf_unmatched blind parent rest]

end

end Markup

/-! ## Previews -/

namespace Html

open Design (Node)

theorem className_unmatched (n : Node) : className n.unmatched = className n := by
  simp only [className, Node.box_unmatched, Design.Box.uniqueName_unmatched]

theorem attributes_unmatched (s : Settings) (parent : Option Node) (n : Node) :
    attributes s (parent.map Node.unmatched) n.unmatched = attributes s parent n := by
  simp only [attributes, layerAttribute, styleAttribute, Css.declarations_unmatched,
    className_unmatched, Node.box_unmatched, Design.Box.name_unmatched]

theorem code_unmatched (s : Settings) (forest : List Node) :
    code s (forest.map Node.unmatched) = code s forest := by
  have elements : Markup.elementsOf (attributes s) false none (forest.map Node.unmatched) =
      Markup.elementsOf (attributes s) false none forest :=
    Markup.elementsOf_unmatched (attributes_unmatched s) none forest
  rw [code, code, elements]

/-- Taking palette matches out of a design does not show in its preview. -/
theorem preview_unmatched (s : Settings) (forest : List Node) :
    preview s (forest.map Node.unmatched) = preview s forest := by
  simp only [preview, code_unmatched, List.map_map, Function.comp_def, Node.box_unmatched,
    Design.Box.geometry_unmatched]

theorem attributes_previewSettings (s t : Settings) :
    attributes (previewSettings s) = attributes (previewSettings t) := by
  have hidden : (previewSettings s).showLayerNames = (previewSettings t).showLayerNames := rfl
  have inlined : (previewSettings s).inlineStyle = (previewSettings t).inlineStyle := rfl
  funext parent n
  simp only [attributes, layerAttribute, styleAttribute, hidden, inlined]

/-- A preview does not depend on the settings. -/
theorem preview_congr (s t : Settings) (forest : List Node) :
    preview s forest = preview t forest := by
  have dialect : Markup.Dialect.ofSettings (previewSettings s) =
      .ofSettings (previewSettings t) := rfl
  simp only [preview, code, dialect, attributes_previewSettings s t]

end Html

end Handoff
