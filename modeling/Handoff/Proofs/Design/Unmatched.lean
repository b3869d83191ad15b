import Handoff.Proofs.Design.Correspondence

/-!
Designs without the palette matches of their colors.

The target enters a design at one place only, the palette entry that a color may be called
by.  `Node.unmatched` takes these entries out and leaves all else as it is, so two designs
are equal but for their palette entries exactly when they are equal after it.

`Design.unmatched_build` says that settings which agree on inferred layouts and on
responsive roots build designs that are equal in this sense, and `Design.warningsOf_congr`
that they leave out the same parts.  Each step of the way has the same two halves: what it
makes agrees once the palette entries are gone, and what it refuses agrees as it is.
-/

namespace Handoff

/-! ## Taking palette matches out -/

namespace Design

/-- A color that no palette entry stands for. -/
def ColorRef.unmatched (c : ColorRef) : ColorRef :=
  { c with palette := none }

def GradientStop.unmatched (stop : GradientStop) : GradientStop :=
  { stop with color := stop.color.unmatched }

def Fill.unmatched : Fill → Fill
  | solid color => solid color.unmatched
  | linearGradient angle stops => linearGradient angle (stops.map GradientStop.unmatched)
  | image imageRef scaleMode => image imageRef scaleMode

def Paint.unmatched (p : Paint) : Paint :=
  { p with fill := p.fill.unmatched }

def Shadow.unmatched (s : Shadow) : Shadow :=
  { s with color := s.color.unmatched }

def Effect.unmatched : Effect → Effect
  | dropShadow s => dropShadow s.unmatched
  | innerShadow s => innerShadow s.unmatched
  | layerBlur radius => layerBlur radius
  | backgroundBlur radius => backgroundBlur radius

def Style.unmatched (s : Style) : Style :=
  { s with
    fills := s.fills.map Paint.unmatched
    strokes := s.strokes.map Paint.unmatched
    effects := s.effects.map Effect.unmatched }

def Box.unmatched (b : Box) : Box :=
  { b with style := b.style.unmatched }

mutual

/-- A node in which no color has a palette match; nothing else is different. -/
def Node.unmatched : Node → Node
  | .mk box children => .mk box.unmatched (Node.unmatchedAll children)

/-- Nodes in which no color has a palette match. -/
def Node.unmatchedAll : List Node → List Node
  | [] => []
  | n :: rest => n.unmatched :: Node.unmatchedAll rest

end

theorem Node.unmatchedAll_eq_map : ∀ nodes : List Node,
    Node.unmatchedAll nodes = nodes.map Node.unmatched
  | [] => rfl
  | n :: rest => congrArg (n.unmatched :: ·) (Node.unmatchedAll_eq_map rest)

@[simp] theorem Node.box_unmatched (n : Node) : n.unmatched.box = n.box.unmatched := by
  cases n
  rfl

@[simp] theorem Node.children_unmatched (n : Node) :
    n.unmatched.children = n.children.map Node.unmatched := by
  cases n with
  | mk box children => exact Node.unmatchedAll_eq_map children

theorem Node.unmatched_asRoot (n : Node) : n.asRoot.unmatched = n.unmatched.asRoot := by
  cases n
  rfl

end Design

/-! ## Styles of different targets -/

namespace Scene

open Design (Fill ColorRef GradientStop Shadow)

/-- What succeeds may be changed before or after it is told apart from what fails. -/
theorem counterparts_map {α β : Type} (f : α → β) (results : List (Except Reason α)) :
    counterparts (results.map (Except.map f)) = (counterparts results).map f := by
  have option : ∀ result : Except Reason α,
      (Except.map f result).toOption = result.toOption.map f := by
    intro result
    cases result <;> rfl
  simp only [counterparts, List.filterMap_map, List.map_filterMap, Function.comp_def, option]

/-- What fails does not depend on what becomes of successes. -/
theorem reasons_map {α β : Type} (f : α → β) (results : List (Except Reason α)) :
    reasons (results.map (Except.map f)) = reasons results := by
  induction results with
  | nil => rfl
  | cons result rest ih =>
      cases result with
      | error reason => simpa [reasons, Except.map] using ih
      | ok a => simpa [reasons, Except.map] using ih

/-- Results that agree up to a change of what succeeds fail for the same reasons, and their
successes agree up to that change. -/
theorem congr_of_map {α β : Type} {f : α → β} {left right : List (Except Reason α)}
    (same : left.map (Except.map f) = right.map (Except.map f)) :
    (counterparts left).map f = (counterparts right).map f ∧ reasons left = reasons right := by
  constructor
  · rw [← counterparts_map, same, counterparts_map]
  · rw [← reasons_map f left, same, reasons_map]

section

variable (s t : Settings)

/-- Without its match, the color of every target is the color that was looked up. -/
theorem unmatched_colorRef (c : Color) : (s.colorRef c).unmatched = ⟨c, none⟩ := rfl

/-- Every target makes the same fill of a paint, but for palette matches. -/
theorem Paint.unmatched_toFill (p : Paint) (width height : Float) :
    (p.toFill s width height).map Fill.unmatched =
      (p.toFill t width height).map Fill.unmatched := by
  unfold Paint.toFill
  cases p.paintType with
  | solid => simp only [Except.map, Fill.unmatched, unmatched_colorRef]
  | gradientLinear =>
      dsimp only
      split
      · rfl
      · simp only [Except.map, Fill.unmatched, List.map_map, Function.comp_def,
          GradientStop.unmatched, unmatched_colorRef]
  | _ => rfl

theorem Paint.unmatched_toDesign (p : Paint) (width height : Float) :
    (p.toDesign s width height).map Design.Paint.unmatched =
      (p.toDesign t width height).map Design.Paint.unmatched := by
  have outside : ∀ u : Settings, (p.toDesign u width height).map Design.Paint.unmatched =
      ((p.toFill u width height).map Fill.unmatched).map
        fun fill => ⟨fill, p.unitOpacity, p.blendMode.toDesign⟩ := by
    intro u
    unfold Paint.toDesign
    cases p.toFill u width height <;> rfl
  rw [outside s, outside t, p.unmatched_toFill s t]

theorem Effect.unmatched_shadow (e : Effect) : (e.shadow s).unmatched = (e.shadow t).unmatched := by
  simp only [Effect.shadow, Shadow.unmatched, unmatched_colorRef]

theorem Effect.unmatched_toDesign (e : Effect) :
    (e.toDesign s).map Design.Effect.unmatched = (e.toDesign t).map Design.Effect.unmatched := by
  unfold Effect.toDesign
  cases e.effectType with
  | dropShadow | innerShadow =>
      simp only [Except.map, Design.Effect.unmatched, e.unmatched_shadow s t]
  | _ => rfl

theorem Layer.unmatched_fillResults (l : Layer) :
    (l.fillResults s).map (Except.map Design.Paint.unmatched) =
      (l.fillResults t).map (Except.map Design.Paint.unmatched) := by
  simp only [Layer.fillResults, List.map_map]
  exact List.map_congr_left fun p _ => p.unmatched_toDesign s t l.width l.height

theorem Layer.unmatched_strokeResults (l : Layer) :
    (l.strokeResults s).map (Except.map Design.Paint.unmatched) =
      (l.strokeResults t).map (Except.map Design.Paint.unmatched) := by
  unfold Layer.strokeResults
  split
  · simp only [List.map_map]
    exact List.map_congr_left fun p _ => p.unmatched_toDesign s t l.width l.height
  · rfl

theorem Layer.unmatched_effectResults (l : Layer) :
    (l.effectResults s).map (Except.map Design.Effect.unmatched) =
      (l.effectResults t).map (Except.map Design.Effect.unmatched) := by
  simp only [Layer.effectResults, List.map_map]
  exact List.map_congr_left fun e _ => e.unmatched_toDesign s t

/-- Every target gives a layer the same style, but for palette matches. -/
theorem Layer.unmatched_style (kind : Design.Kind) (l : Layer) :
    (l.style s kind).unmatched = (l.style t kind).unmatched := by
  have fills := (congr_of_map (l.unmatched_fillResults s t)).1
  have strokes := (congr_of_map (l.unmatched_strokeResults s t)).1
  have effects := (congr_of_map (l.unmatched_effectResults s t)).1
  -- Whether there is a stroke at all is the one thing a style says of its paints twice.
  have present : (counterparts (l.strokeResults s)).isEmpty =
      (counterparts (l.strokeResults t)).isEmpty := by
    have same := congrArg List.isEmpty strokes
    rwa [List.isEmpty_map, List.isEmpty_map] at same
  simp only [Layer.style, Design.Style.unmatched, fills, strokes, effects, present]

/-- Every target refuses the same parts of a layer. -/
theorem Layer.refusals_congr (l : Layer) : l.refusals s = l.refusals t := by
  have fills := (congr_of_map (l.unmatched_fillResults s t)).2
  have strokes := (congr_of_map (l.unmatched_strokeResults s t)).2
  have effects := (congr_of_map (l.unmatched_effectResults s t)).2
  simp only [Layer.refusals, fills, strokes, effects]

end

end Scene

/-! ## Layouts of different targets -/

section

variable {s t : Settings} (optimize : s.optimizeLayout = t.optimizeLayout)
  (responsive : s.responsiveRoot = t.responsiveRoot)

namespace Scene

open Design (Geometry)

include optimize

theorem Layer.mode_congr (kind : Design.Kind) (l : Layer) : l.mode s kind = l.mode t kind := by
  unfold Layer.mode Layer.autoLayoutInForce?
  rw [optimize]

theorem ofParent_congr (parent : Option Node) :
    Surroundings.ofParent s parent = Surroundings.ofParent t parent := by
  cases parent with
  | none => rfl
  | some parent => exact congrArg Surroundings.inside (Layer.mode_congr optimize _ _)

include responsive

theorem Layer.layout_congr (l : Layer) (kind : Design.Kind) (geometry : Geometry)
    (around : Surroundings) :
    l.layout s kind geometry around = l.layout t kind geometry around := by
  simp only [Layer.layout, Layer.sizing, Layer.mode_congr optimize, responsive]

end Scene

/-! ## Designs of different targets -/

namespace Outline

open Design (Node)

variable (s t) in
theorem unmatched_style (o : Outline) : (o.style s).unmatched = (o.style t).unmatched := by
  unfold Outline.style
  cases o.layer.kind? with
  | none => rfl
  | some kind => exact o.layer.unmatched_style s t kind

variable (s t) in
theorem refusals_congr (o : Outline) : o.refusals s = o.refusals t := by
  unfold Outline.refusals
  cases o.layer.kind? with
  | none => rfl
  | some kind => exact o.layer.refusals_congr s t

include optimize responsive in
theorem unmatched_box (around : Surroundings) (name : String) (o : Outline) :
    (o.box s around name).unmatched = (o.box t around name).unmatched := by
  simp only [Outline.box, Design.Box.unmatched, o.unmatched_style s t,
    Scene.Layer.layout_congr optimize responsive]

mutual

/-- The designs of a node differ in palette matches only. -/
theorem unmatched_toDesign (optimize : s.optimizeLayout = t.optimizeLayout)
    (responsive : s.responsiveRoot = t.responsiveRoot) :
    ∀ (o : Outline) (around : Surroundings) (names : Registry),
      (o.toDesign s around names).1.unmatched = (o.toDesign t around names).1.unmatched ∧
        (o.toDesign s around names).2 = (o.toDesign t around names).2
  | mk layer id dx dy children, around, names => by
      have box := unmatched_box optimize responsive around
        (names.register layer.name layer.kind.fallbackName).1 (mk layer id dx dy children)
      -- The children are laid out against the mode of the box, which is no part of its style.
      have mode : ((mk layer id dx dy children).box s around
          (names.register layer.name layer.kind.fallbackName).1).layout.mode =
          ((mk layer id dx dy children).box t around
            (names.register layer.name layer.kind.fallbackName).1).layout.mode :=
        congrArg (·.layout.mode) box
      have below := unmatched_listToDesign optimize responsive children
        (.inside ((mk layer id dx dy children).box t around
          (names.register layer.name layer.kind.fallbackName).1).layout.mode)
        (names.register layer.name layer.kind.fallbackName).2
      simp only [toDesign_mk, Node.unmatched, mode, box, Node.unmatchedAll_eq_map, below.1, below.2,
        and_self]

/-- The designs of nodes in turn differ in palette matches only. -/
theorem unmatched_listToDesign (optimize : s.optimizeLayout = t.optimizeLayout)
    (responsive : s.responsiveRoot = t.responsiveRoot) :
    ∀ (outlines : List Outline) (around : Surroundings) (names : Registry),
      (listToDesign s around names outlines).1.map Node.unmatched =
          (listToDesign t around names outlines).1.map Node.unmatched ∧
        (listToDesign s around names outlines).2 = (listToDesign t around names outlines).2
  | [], _, _ => by
      simp only [listToDesign, and_self]
  | o :: rest, around, names => by
      have first := unmatched_toDesign optimize responsive o around names
      have others := unmatched_listToDesign optimize responsive rest around
        (o.toDesign t around names).2
      simp only [listToDesign_cons, List.map_cons, first.1, first.2, others.1, others.2,
        and_self]

end

end Outline

namespace Design

/-- Nodes may be changed before or after a selection is found to have no design. -/
theorem map_build (u : Settings) (parent : Option Scene.Node) (roots : List Scene.Node)
    (f : Node → Node) :
    (build u parent roots).map (List.map f) =
      match (ofSelection u parent roots .empty).1.map f with
      | [] => .error .emptySelection
      | forest => .ok forest := by
  unfold build
  cases (ofSelection u parent roots .empty).1 <;> rfl

include optimize responsive

/-- The designs of a selection differ in palette matches only, and the same names are taken
for their nodes. -/
theorem unmatched_ofSelection (parent : Option Scene.Node) (roots : List Scene.Node)
    (names : Registry) :
    (ofSelection s parent roots names).1.map Node.unmatched =
        (ofSelection t parent roots names).1.map Node.unmatched ∧
      (ofSelection s parent roots names).2 = (ofSelection t parent roots names).2 := by
  have placed : ∀ forest : List Node, (forest.map Node.asRoot).map Node.unmatched =
      (forest.map Node.unmatched).map Node.asRoot := by
    intro forest
    simp only [List.map_map, Function.comp_def, Node.unmatched_asRoot]
  have around := Scene.ofParent_congr optimize parent
  obtain ⟨nodes, taken⟩ := Outline.unmatched_listToDesign optimize responsive
    (Outline.ofRoots roots) (.ofParent t parent) names
  simp only [ofSelection, around, placed, nodes, taken, and_self]

/-- Settings that agree on layouts build designs which differ in palette matches only;
where one of them builds none, the other builds none for the same reason. -/
theorem unmatched_build (parent : Option Scene.Node) (roots : List Scene.Node) :
    (build s parent roots).map (List.map Node.unmatched) =
      (build t parent roots).map (List.map Node.unmatched) := by
  rw [map_build, map_build,
    (unmatched_ofSelection optimize responsive parent roots .empty).1]

end Design

end

/-- Every target says of the same parts of a selection that its design leaves them out. -/
theorem Design.warningsOf_congr (s t : Settings) (roots : List Scene.Node) :
    Design.warningsOf s roots = Design.warningsOf t roots := by
  unfold Design.warningsOf Outline.warnings
  simp only [Outline.refusals_congr s t]

end Handoff
