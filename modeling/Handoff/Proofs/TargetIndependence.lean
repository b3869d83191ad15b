import Handoff.Conversion
import Handoff.Proofs.Distinct
import Handoff.Proofs.Html.Unmatched

/-!
What all targets have in common.

Two conversions of one selection, to any targets and under any settings, show the same
preview and list the same colors and gradients as long as the settings agree on inferred
layouts and on responsive roots.  `Conversion.common` is the part of a conversion that
this is about, and `common_convert` reads that part off the design alone; the designs
themselves differ in the palette matches of colors only (`Design.unmatched_build`), which
`Common.ofForest` does not look at.

`targets_agree` says so for the whole way from a selection to a conversion, and that the
design leaves out the same for every target.
-/

namespace Handoff

/-! ## Colors in use -/

namespace Design

mutual

theorem Node.preorder_unmatched : ∀ n : Node,
    n.unmatched.preorder = n.preorder.map Node.unmatched
  | .mk box children => by
      have below := Node.preorderList_unmatched children
      simp only [Node.unmatched, Node.unmatchedAll_eq_map, Node.preorder, List.map_cons, below]

theorem Node.preorderList_unmatched : ∀ forest : List Node,
    Node.preorderList (forest.map Node.unmatched) = (Node.preorderList forest).map Node.unmatched
  | [] => rfl
  | n :: rest => by
      simp only [List.map_cons, Node.preorderList, List.map_append, Node.preorder_unmatched n,
        Node.preorderList_unmatched rest]

end

/-- A gradient in which no color has a palette match. -/
def Gradient.unmatched (g : Gradient) : Gradient :=
  { g with stops := g.stops.map GradientStop.unmatched }

@[simp] theorem Gradient.css_unmatched (g : Gradient) : g.unmatched.css = g.css :=
  Css.linearGradient_unmatched g.angle g.stops

theorem Paint.gradient?_unmatched (p : Paint) :
    p.unmatched.gradient? = p.gradient?.map Gradient.unmatched := by
  obtain ⟨fill, opacity, blendMode⟩ := p
  cases fill <;> rfl

theorem Effect.color?_unmatched (e : Effect) :
    e.unmatched.color? = e.color?.map ColorRef.unmatched := by
  cases e <;> rfl

theorem Style.paints_unmatched (s : Style) : s.unmatched.paints = s.paints.map Paint.unmatched := by
  simp only [Style.paints, Style.fills_unmatched, Style.strokes_unmatched, List.map_append]

theorem Style.colors_unmatched (s : Style) :
    s.unmatched.colors = s.colors.map ColorRef.unmatched := by
  simp only [Style.colors, Style.paints_unmatched, Style.effects_unmatched, List.filterMap_map,
    List.map_append, List.map_filterMap, Function.comp_def, Paint.solid?_unmatched,
    Effect.color?_unmatched]

theorem Style.gradients_unmatched (s : Style) :
    s.unmatched.gradients = s.gradients.map Gradient.unmatched := by
  simp only [Style.gradients, Style.paints_unmatched, List.filterMap_map, List.map_filterMap,
    Function.comp_def, Paint.gradient?_unmatched]

theorem UsedColors.solids_unmatched (forest : List Node) :
    (ofForest (forest.map Node.unmatched)).solids =
      (ofForest forest).solids.map ColorRef.unmatched := by
  simp only [ofForest, Node.preorderList_unmatched, List.flatMap_map, Node.box_unmatched,
    Box.style_unmatched, Style.colors_unmatched, ← List.map_flatMap, distinctBy_map,
    ColorRef.color_unmatched]

theorem UsedColors.gradients_unmatched (forest : List Node) :
    (ofForest (forest.map Node.unmatched)).gradients =
      (ofForest forest).gradients.map Gradient.unmatched := by
  have key : (fun g : Gradient => g.unmatched.css) = Gradient.css := funext Gradient.css_unmatched
  simp only [ofForest, Node.preorderList_unmatched, List.flatMap_map, Node.box_unmatched,
    Box.style_unmatched, Style.gradients_unmatched, ← List.map_flatMap, distinctBy_map, key]

end Design

/-! ## The common part of conversions -/

open Design (Node UsedColors ColorRef Gradient)

/-- What is shown of a color whatever the target: its text and its contrasts. -/
structure PlainColor where
  hex : String
  contrastWhite : Float
  contrastBlack : Float

/-- What is shown whatever the target. -/
structure Common where
  preview : Html.Preview
  colors : List PlainColor
  /-- The CSS texts of the gradients. -/
  gradients : List String

/-- The color on show without what the target makes of it. -/
def SolidColor.plain (c : SolidColor) : PlainColor :=
  ⟨c.hex, c.contrastWhite, c.contrastBlack⟩

/-- A conversion without what the target makes of it. -/
def Conversion.common (c : Conversion) : Common :=
  ⟨c.preview, c.colors.map SolidColor.plain, c.gradients.map (·.css)⟩

namespace Common

/-- The color of a design, as it is shown whatever the target. -/
def plainOf (c : ColorRef) : PlainColor :=
  ⟨c.color.hexAlpha, SolidColor.contrast c.color .white, SolidColor.contrast c.color .black⟩

/-- What is shown of a design whatever the target. -/
def ofForest (s : Settings) (forest : List Node) : Common :=
  ⟨Html.preview s forest, (UsedColors.ofForest forest).solids.map plainOf,
    (UsedColors.ofForest forest).gradients.map Gradient.css⟩

theorem plainOf_unmatched (c : ColorRef) : plainOf c.unmatched = plainOf c := rfl

theorem ofForest_unmatched (s : Settings) (forest : List Node) :
    ofForest s (forest.map Node.unmatched) = ofForest s forest := by
  simp only [ofForest, Html.preview_unmatched, UsedColors.solids_unmatched,
    UsedColors.gradients_unmatched, List.map_map, Function.comp_def, plainOf_unmatched,
    Gradient.css_unmatched]

theorem ofForest_congr (s t : Settings) : ofForest s = ofForest t := by
  funext forest
  simp only [ofForest, Html.preview_congr s t]

end Common

/-- The common part of a conversion is read off the design. -/
theorem common_convert (s : Settings) (parent : Option Scene.Node) (roots : List Scene.Node) :
    (convert s parent roots).map Conversion.common =
      (Design.build s parent roots).map (Common.ofForest s) := by
  have colors : ∀ used : UsedColors, (used.solidColors s.framework).map SolidColor.plain =
      used.solids.map Common.plainOf := by
    intro used
    rw [UsedColors.solidColors, List.map_map]
    rfl
  have gradients : ∀ used : UsedColors, (used.linearGradients s.framework).map (·.css) =
      used.gradients.map Gradient.css := by
    intro used
    rw [UsedColors.linearGradients, List.map_map]
    rfl
  unfold convert
  cases Design.build s parent roots with
  | error cause => rfl
  | ok forest =>
      simp only [bind, Except.bind, pure, Except.pure, Except.map, Conversion.common, colors,
        gradients, Common.ofForest]

/-- The target does not matter to what is laid out and painted.  Of any selection, settings
that agree on inferred layouts and on responsive roots build designs that differ in the
palette matches of colors only, leave the same out of them, and show the same preview, the
same colors with the same contrasts and the same gradients. -/
theorem targets_agree {s t : Settings} (optimize : s.optimizeLayout = t.optimizeLayout)
    (responsive : s.responsiveRoot = t.responsiveRoot) (parent : Option Scene.Node)
    (roots : List Scene.Node) :
    (Design.build s parent roots).map (List.map Node.unmatched) =
        (Design.build t parent roots).map (List.map Node.unmatched) ∧
      Design.warningsOf s roots = Design.warningsOf t roots ∧
      (convert s parent roots).map Conversion.common =
        (convert t parent roots).map Conversion.common := by
  have designs := Design.unmatched_build optimize responsive parent roots
  have readOff : ∀ u : Settings, (convert u parent roots).map Conversion.common =
      ((Design.build u parent roots).map (List.map Node.unmatched)).map (Common.ofForest t) := by
    intro u
    rw [common_convert, Common.ofForest_congr u t]
    cases Design.build u parent roots with
    | error cause => rfl
    | ok forest => exact congrArg Except.ok (Common.ofForest_unmatched t forest).symm
  refine ⟨designs, Design.warningsOf_congr s t roots, ?_⟩
  rw [readOff s, readOff t, designs]

/-- A red box and its shadow, for the two targets that are set up least alike. -/
theorem targets_agree_redBox :
    let red : Color := .ofBytes 239 68 68
    let box : Scene.Node :=
      .mk { nodeType := "RECTANGLE", width := 4.0, height := 3.0,
            fills := [{ color := some red }], effects := [{ color := some red }] } []
    let s := Settings.defaults
    let t : Settings :=
      { framework := .flutter, jsx := true, optimizeLayout := true, showLayerNames := true,
        inlineStyle := false, responsiveRoot := false, flutterScope := .full,
        swiftUIScope := .full, roundTailwindValues := true, roundTailwindColors := true,
        colorTolerance := 8.0 }
    s.optimizeLayout = t.optimizeLayout ∧ s.responsiveRoot = t.responsiveRoot ∧
      (Design.build s none [box]).map (List.map Node.unmatched) =
        (Design.build t none [box]).map (List.map Node.unmatched) ∧
      Design.warningsOf s [box] = Design.warningsOf t [box] ∧
      (convert s none [box]).map Conversion.common =
        (convert t none [box]).map Conversion.common := by
  intro red box s t
  have optimize : s.optimizeLayout = t.optimizeLayout := rfl
  have responsive : s.responsiveRoot = t.responsiveRoot := rfl
  exact ⟨optimize, responsive, targets_agree optimize responsive none [box]⟩

end Handoff
