import Handoff.Proofs.Design.Correspondence

/-!
The layout of a design fits together: where a node is placed follows from how its parent
in the design arranges its children, and the size of a node on an axis is only ever a
request that its mode, its kind and its placement can honour.

`Box.Coherent` says this of one node beside the layer it was made from.  Each way of
working out a layout has its inversion lemma first (`Layer.extent_eq_*`,
`Layer.placement_inside_*`), so the proof for a node is an assembly of these.  The main
statement is `Design.coherent_of_build`: every node of every design is coherent, the
roots also after they were moved out of the surroundings they were resolved in.
-/

namespace Handoff

open Design (Direction Mode Extent Flow Kind Geometry Placement)

/-! ## One axis -/

namespace Scene

variable {l : Layer} {kind : Kind} {mode : Mode} {around : Surroundings} {axis : Direction}
  {measured : Float}

/-- A fixed extent is the measured size. -/
theorem Layer.extent_eq_fixed {v : Float}
    (extent : l.extent kind mode around axis measured = .fixed v) : v = measured := by
  unfold Layer.extent at extent
  split at extent
  · split at extent
    · cases extent
    · exact (Extent.fixed.inj extent).symm
  · split at extent
    · cases extent
    · exact (Extent.fixed.inj extent).symm
  · exact (Extent.fixed.inj extent).symm

/-- Only a node that lets its children flow, and a text, follow their contents. -/
theorem Layer.extent_eq_hug (extent : l.extent kind mode around axis measured = .hug) :
    mode.flow?.isSome = true ∨ kind = .text := by
  unfold Layer.extent at extent
  split at extent
  · split at extent
    · assumption
    · cases extent
  · split at extent <;> cases extent
  · cases extent

/-- Only a node in a flow takes the space of its parent. -/
theorem Layer.extent_eq_fill (extent : l.extent kind mode around axis measured = .fill) :
    l.isInFlow around = true := by
  unfold Layer.extent at extent
  split at extent
  · split at extent <;> cases extent
  · split at extent
    · assumption
    · cases extent
  · cases extent

/-! ## Both axes -/

section

variable {s : Settings} {geometry : Geometry}

/-- The width is worked out like the height, unless a node without a parent fills it. -/
theorem Layer.sizing_horizontal (around : Surroundings) :
    (around = .root ∧ s.responsiveRoot = true ∧
        (l.sizing s kind mode geometry around).horizontal = .fill) ∨
      (l.sizing s kind mode geometry around).horizontal =
        l.extent kind mode around .horizontal geometry.width := by
  cases around with
  | inside above => exact Or.inr rfl
  | root =>
      cases responsive : s.responsiveRoot with
      | true =>
          refine Or.inl ⟨rfl, rfl, ?_⟩
          unfold Layer.sizing
          rw [responsive]
      | false =>
          refine Or.inr ?_
          unfold Layer.sizing
          rw [responsive]

/-- A fixed size is the measured one on both axes. -/
theorem Layer.sizing_fixed (v : Float) :
    ((l.sizing s kind mode geometry around).horizontal = .fixed v → v = geometry.width) ∧
      ((l.sizing s kind mode geometry around).vertical = .fixed v → v = geometry.height) := by
  refine ⟨fun width => ?_, Layer.extent_eq_fixed⟩
  rcases Layer.sizing_horizontal around with ⟨-, -, fills⟩ | extent
  · cases fills.symm.trans width
  · exact Layer.extent_eq_fixed (extent.symm.trans width)

/-- What follows its contents on an axis flows or is a text. -/
theorem Layer.sizing_hug (hug : (l.sizing s kind mode geometry around).along axis = .hug) :
    mode.flow?.isSome = true ∨ kind = .text := by
  cases axis with
  | vertical => exact Layer.extent_eq_hug hug
  | horizontal =>
      rcases Layer.sizing_horizontal around with ⟨-, -, fills⟩ | extent
      · cases fills.symm.trans hug
      · exact Layer.extent_eq_hug (extent.symm.trans hug)

/-- What fills an axis inside a parent is in its flow. -/
theorem Layer.sizing_fill {above : Mode}
    (fill : (l.sizing s kind mode geometry (.inside above)).along axis = .fill) :
    l.isInFlow (.inside above) = true := by
  cases axis with
  | vertical => exact Layer.extent_eq_fill fill
  | horizontal =>
      rcases Layer.sizing_horizontal (.inside above) with ⟨missing, -, -⟩ | extent
      · cases missing
      · exact Layer.extent_eq_fill (extent.symm.trans fill)

/-- Nothing flows around a node without a parent. -/
theorem Layer.not_isInFlow_root : l.isInFlow .root = false := rfl

/-- Without a parent the width is filled exactly when roots are responsive, and the height
never. -/
theorem Layer.sizing_root :
    ((l.sizing s kind mode geometry .root).horizontal = .fill ↔ s.responsiveRoot = true) ∧
      (l.sizing s kind mode geometry .root).vertical ≠ .fill := by
  refine ⟨⟨fun fill => ?_, fun responsive => ?_⟩, fun fill => ?_⟩
  · rcases Layer.sizing_horizontal .root with ⟨-, responsive, -⟩ | extent
    · exact responsive
    · cases Layer.not_isInFlow_root.symm.trans (Layer.extent_eq_fill (extent.symm.trans fill))
  · unfold Layer.sizing
    rw [responsive]
  · cases Layer.not_isInFlow_root.symm.trans (Layer.extent_eq_fill fill)

end

/-! ## Placement -/

variable {geometry : Geometry} {above : Mode}

/-- A layer is in the flow of a mode if there is one and the layer takes part in it. -/
theorem Layer.isInFlow_inside :
    l.isInFlow (.inside above) = true ↔
      above.flow?.isSome = true ∧ l.positioning ≠ .absolute := by
  simp [Layer.isInFlow, Surroundings.direction?]

/-- A parent places by its flow exactly what is in the flow. -/
theorem Layer.placement_inside_eq_flow_iff :
    l.placement geometry (.inside above) = .flow ↔ l.isInFlow (.inside above) = true := by
  rw [Layer.isInFlow_inside]
  cases above with
  | absolute => exact ⟨fun placed => (nomatch placed), fun flows => (nomatch flows.1)⟩
  | flow f =>
      unfold Layer.placement
      by_cases absolute : l.positioning = .absolute
      · simp [absolute]
      · simp [absolute, Mode.flow?]

/-- A parent places everything else at its offset. -/
theorem Layer.placement_inside (out : l.placement geometry (.inside above) ≠ .flow) :
    l.placement geometry (.inside above) = .absolute geometry.x geometry.y := by
  cases above with
  | absolute => rfl
  | flow f =>
      unfold Layer.placement at out ⊢
      by_cases absolute : l.positioning = .absolute
      · rw [if_pos absolute]
      · rw [if_neg absolute] at out
        exact (out rfl).elim

/-- A parent never places a node as a root. -/
theorem Layer.placement_inside_ne_root : l.placement geometry (.inside above) ≠ .root := by
  intro root
  by_cases flow : l.placement geometry (.inside above) = .flow
  · cases flow.symm.trans root
  · cases (Layer.placement_inside flow).symm.trans root

end Scene

/-! ## Nodes -/

namespace Design

/-- The layout of a node fits its layer, the box above it in the design (none for a root)
and what is known of the surroundings of the selection. -/
structure Box.Coherent (s : Settings) (host : Option Scene.Node) (above : Option Box)
    (layer : Scene.Layer) (box : Box) : Prop where
  /-- The roots, and only they, are placed as roots. -/
  root_iff : box.layout.placement = .root ↔ above = none
  /-- The flow of a parent places what takes part in it. -/
  flow_iff : ∀ parent, above = some parent →
    (box.layout.placement = .flow ↔
      parent.layout.flow?.isSome = true ∧ layer.positioning ≠ .absolute)
  /-- All else in a parent is placed at its offset. -/
  offset : ∀ parent, above = some parent → box.layout.placement ≠ .flow →
    box.layout.placement = .absolute box.geometry.x box.geometry.y
  /-- A fixed size is the measured one. -/
  fixed : ∀ v, (box.layout.sizing.horizontal = .fixed v → v = box.geometry.width) ∧
    (box.layout.sizing.vertical = .fixed v → v = box.geometry.height)
  /-- What follows its contents flows or is a text. -/
  hug : ∀ axis, box.layout.sizing.along axis = .hug →
    box.layout.flow?.isSome = true ∨ box.kind = .text
  /-- What fills an axis of its parent is placed by the flow. -/
  fill : above ≠ none → ∀ axis, box.layout.sizing.along axis = .fill →
    box.layout.placement = .flow
  /-- A root of a selection without a parent fills the width if the settings say so, and
  never the height. -/
  root_fill : host = none → above = none →
    (box.layout.sizing.horizontal = .fill ↔ s.responsiveRoot = true) ∧
      box.layout.sizing.vertical ≠ .fill

/-- A node inside another is coherent. -/
theorem coherent_inside (s : Settings) (host : Option Scene.Node) (o : Outline) (above : Box)
    (name : String) :
    Box.Coherent s host (some above) o.layer (o.box s (.inside above.layout.mode) name) where
  root_iff := ⟨fun root => (Scene.Layer.placement_inside_ne_root root).elim,
    fun missing => (nomatch missing)⟩
  flow_iff := by
    rintro parent ⟨rfl⟩
    exact Scene.Layer.placement_inside_eq_flow_iff.trans Scene.Layer.isInFlow_inside
  offset := fun _ _ => Scene.Layer.placement_inside
  fixed := Scene.Layer.sizing_fixed
  hug := fun _ => Scene.Layer.sizing_hug
  fill := by
    intro _ axis fill
    have inFlow : o.layer.isInFlow (.inside above.layout.mode) = true :=
      Scene.Layer.sizing_fill (show (o.layer.sizing s o.layer.kind (o.layer.mode s o.layer.kind)
        o.geometry (.inside above.layout.mode)).along axis = .fill from fill)
    exact Scene.Layer.placement_inside_eq_flow_iff.mpr inFlow
  root_fill := fun _ missing => nomatch missing

/-- A root is coherent, whatever it was resolved against. -/
theorem coherent_root (s : Settings) (host : Option Scene.Node) (o : Outline) (name : String) :
    Box.Coherent s host none o.layer (o.box s (.ofParent s host) name).atRoot where
  root_iff := ⟨fun _ => rfl, fun _ => rfl⟩
  flow_iff := fun _ missing => nomatch missing
  offset := fun _ missing => nomatch missing
  fixed := Scene.Layer.sizing_fixed
  hug := fun _ => Scene.Layer.sizing_hug
  fill := fun present => (present rfl).elim
  root_fill := by
    rintro rfl -
    exact Scene.Layer.sizing_root

/-- Every node of the design of a selection is coherent. -/
theorem coherent_of_build {s : Settings} {host : Option Scene.Node} {roots : List Scene.Node}
    {forest : List Node} (built : Design.build s host roots = .ok forest) :
    Node.FollowsAll (Box.Coherent s host) none (Scene.shownForest roots) forest := by
  obtain ⟨rfl, -⟩ := build_eq_ok built
  exact followsAll_ofSelection s host roots .empty
    (fun o _ name => coherent_root s host o name)
    (fun o _ above name => coherent_inside s host o above name)

/-- A responsive row with a child that grows, one that is placed absolutely and a bare
group around a hidden and a shown node. -/
theorem coherent_of_build_row :
    let box : Scene.Layer := { nodeType := "RECTANGLE", width := 4.0, height := 3.0 }
    let hidden : Scene.Node := .mk { box with visible := false } []
    let row : Scene.Node :=
      .mk { nodeType := "FRAME", autoLayout := { mode := .horizontal } } [
        .mk { box with layoutGrow := 1.0 } [],
        .mk { box with positioning := .absolute, x := 2.0 } [],
        .mk { nodeType := "GROUP", x := 5.0 } [hidden, .mk { box with x := 1.0 } []]]
    let s := { Settings.defaults with responsiveRoot := true }
    Design.build s none [row] = .ok (ofSelection s none [row] .empty).1 ∧
      Node.FollowsAll (Box.Coherent s none) none (Scene.shownForest [row])
        (ofSelection s none [row] .empty).1 :=
  ⟨rfl, coherent_of_build rfl⟩

end Design

end Handoff
