import Mathlib.Data.List.Forall2
import Handoff.Proofs.Design.Coherence

/-!
Which roots of a design fill the width.

Roots are worked out against what is known of the parent that the selection has.  Without
one, the setting for responsive roots decides; with one, its flow does, and what the layer asks
of that flow (`Layer.FillsWidthOf`).  Only the placement of a root is put right afterwards.

`Layer.extent_eq_fill_iff` is the inversion of an extent that fills, `Layer.root_fill_iff` says
it of the width of a root, and `Design.rootWidths_of_build` of all roots of a design: inside a
parent the setting has no say.
-/

namespace Handoff

open Design (Direction Mode Extent Kind Geometry Node)

namespace Scene

variable {l : Layer} {kind : Kind} {mode : Mode}

/-- A layer fills the width of a flow: it takes part in it and asks for the width, outright or,
where it has no sizing of its own, by growing along a row or stretching across a column. -/
def Layer.FillsWidthOf (l : Layer) (direction : Direction) : Prop :=
  l.positioning ≠ .absolute ∧
    (l.sizingHorizontal = some .fill ∨
      l.sizingHorizontal = none ∧
        match direction with
        | .horizontal => l.layoutGrow > 0.0
        | .vertical => l.layoutAlign = .stretch)

/-- What fills an axis asks to and is in a flow. -/
theorem Layer.extent_eq_fill_iff {around : Surroundings} {axis : Direction} {measured : Float} :
    l.extent kind mode around axis measured = .fill ↔
      l.requested? kind around axis = some .fill ∧ l.isInFlow around = true := by
  unfold Layer.extent
  constructor
  · intro fill
    split at fill
    · split at fill <;> cases fill
    · rename_i asked
      split at fill
      · exact ⟨asked, ‹_›⟩
      · cases fill
    · cases fill
  · rintro ⟨asked, inFlow⟩
    rw [asked]
    exact if_pos inFlow

/-- An explicit sizing asks to fill only by that word. -/
theorem AxisSizing.extent?_eq_fill_iff {sizing : AxisSizing} :
    sizing.extent? = some .fill ↔ sizing = .fill := by
  cases sizing <;> simp [AxisSizing.extent?]

/-- The sizing that a layer was given on an axis. -/
def Layer.explicit? (l : Layer) : Direction → Option AxisSizing
  | .horizontal => l.sizingHorizontal
  | .vertical => l.sizingVertical

/-- What a layer asks for on an axis is the sizing that it was given there, or follows from its
growth, its stretching and its text. -/
theorem Layer.requested?_eq {around : Surroundings} {axis : Direction} :
    l.requested? kind around axis =
      match l.explicit? axis with
      | some sizing => sizing.extent?
      | none =>
        if l.asksToFill around axis then some .fill
        else if kind = .text ∧ l.textAutoResize.follows axis then some .hug
        else none := by
  cases axis <;> rfl

/-- In a flow an axis is asked for outright, or by growing along the flow or stretching across it
where no sizing was given. -/
theorem Layer.requested?_flow_eq_fill_iff {flow : Design.Flow} {axis : Direction} :
    l.requested? kind (.inside (.flow flow)) axis = some .fill ↔
      l.explicit? axis = some .fill ∨
        l.explicit? axis = none ∧
          (flow.direction = axis ∧ l.layoutGrow > 0.0 ∨
            flow.direction ≠ axis ∧ l.layoutAlign = .stretch) := by
  have asks : l.asksToFill (.inside (.flow flow)) axis = true ↔
      flow.direction = axis ∧ l.layoutGrow > 0.0 ∨
        flow.direction ≠ axis ∧ l.layoutAlign = .stretch := by
    by_cases same : flow.direction = axis <;>
      simp [Layer.asksToFill, Surroundings.direction?, Mode.flow?, same]
  rw [Layer.requested?_eq]
  cases l.explicit? axis with
  | some sizing => simp [AxisSizing.extent?_eq_fill_iff]
  | none =>
      rw [← asks]
      by_cases filling : l.asksToFill (.inside (.flow flow)) axis = true
      · simp [filling]
      · simp [filling]

/-- In a flow the width is asked for outright, or by growing or stretching where no sizing was
given. -/
theorem Layer.requested?_eq_fill_iff {flow : Design.Flow} :
    l.requested? kind (.inside (.flow flow)) .horizontal = some .fill ↔
      l.sizingHorizontal = some .fill ∨
        l.sizingHorizontal = none ∧
          match flow.direction with
          | .horizontal => l.layoutGrow > 0.0
          | .vertical => l.layoutAlign = .stretch := by
  rw [Layer.requested?_flow_eq_fill_iff]
  cases flow.direction <;> simp [Layer.explicit?]

/-- A layer fills the width as a root of a selection: without a parent if the settings say so,
inside one if that lets its children flow and the layer fills the width of the flow. -/
def Layer.FillsWidthUnder (s : Settings) (host : Option Scene.Node) (l : Layer) : Prop :=
  match host with
  | none => s.responsiveRoot = true
  | some parent =>
    ∃ flow, parent.layer.mode s parent.layer.kind = .flow flow ∧ l.FillsWidthOf flow.direction

theorem Layer.fillsWidthUnder_some {s : Settings} {parent : Scene.Node} :
    l.FillsWidthUnder s (some parent) ↔
      ∃ flow, parent.layer.mode s parent.layer.kind = .flow flow ∧
        l.FillsWidthOf flow.direction :=
  Iff.rfl

/-- The width of a root is worked out against what is known of the parent. -/
theorem Layer.root_fill_iff {s : Settings} {geometry : Geometry} (host : Option Scene.Node) :
    (l.sizing s kind mode geometry (.ofParent s host)).horizontal = .fill ↔
      l.FillsWidthUnder s host := by
  cases host with
  | none => exact Layer.sizing_root.1
  | some parent =>
      rw [Layer.fillsWidthUnder_some]
      refine Layer.extent_eq_fill_iff.trans ?_
      rw [Surroundings.ofParent, Layer.isInFlow_inside]
      cases parent.layer.mode s parent.layer.kind with
      | absolute =>
          constructor
          · rintro ⟨-, flows, -⟩
            cases flows
          · rintro ⟨flow, missing, -⟩
            cases missing
      | flow flow =>
          rw [Layer.requested?_eq_fill_iff]
          constructor
          · rintro ⟨asks, -, positioned⟩
            exact ⟨flow, rfl, positioned, asks⟩
          · rintro ⟨_, ⟨rfl⟩, positioned, asks⟩
            exact ⟨asks, rfl, positioned⟩

end Scene

namespace Design

/-- The roots of trees side by side agree. -/
theorem Node.FollowsAll.forall₂ {R : Agreement} {above : Option Box} :
    ∀ {sources : List Scene.Node} {nodes : List Node},
      Node.FollowsAll R above sources nodes →
        List.Forall₂ (fun source n => R above source.layer n.box) sources nodes
  | [], [], _ => .nil
  | .mk _ _ :: _, .mk _ _ :: _, ⟨⟨agree, _⟩, rest⟩ => .cons agree rest.forall₂

section

variable {s : Settings} {host : Option Scene.Node} {roots : List Scene.Node} {forest : List Node}

/-- A root fills the width exactly if its layer does under the parent of the selection. -/
theorem rootWidths_of_build (built : Design.build s host roots = .ok forest) :
    List.Forall₂ (fun source n =>
        n.box.layout.sizing.horizontal = .fill ↔ source.layer.FillsWidthUnder s host)
      (Scene.shownForest roots) forest := by
  obtain ⟨rfl, -⟩ := build_eq_ok built
  have follows := followsAll_ofSelection (R := fun above layer box => above = none →
      (box.layout.sizing.horizontal = .fill ↔ layer.FillsWidthUnder s host)) s host roots .empty
    (fun _ _ _ _ => Scene.Layer.root_fill_iff host) (fun _ _ _ _ inside => nomatch inside)
  exact follows.forall₂.imp fun _ _ agree => agree rfl

/-- Two responsive roots in a row: a frame, and a bare group around a frame that grows. -/
theorem rootWidths_of_build_row :
    let frame : Scene.Layer := { nodeType := "FRAME", width := 40.0, height := 20.0 }
    let row : Scene.Node := .mk { frame with autoLayout := { mode := .horizontal } } []
    let roots : List Scene.Node :=
      [.mk frame [], .mk { nodeType := "GROUP" } [.mk { frame with layoutGrow := 1.0 } []]]
    let s := { Settings.defaults with responsiveRoot := true }
    let forest := (ofSelection s (some row) roots .empty).1
    Design.build s (some row) roots = .ok forest ∧
      forest.map (·.box.layout.sizing.horizontal.isFill) = [false, true] ∧
      List.Forall₂ (fun source n =>
          n.box.layout.sizing.horizontal = .fill ↔ source.layer.FillsWidthUnder s (some row))
        (Scene.shownForest roots) forest := by
  intro frame row roots s forest
  exact ⟨rfl, by decide +kernel, rootWidths_of_build rfl⟩

/-- A responsive root on a page without a flow keeps its measured width. -/
theorem not_fill_on_page :
    let card : Scene.Node :=
      .mk { id := "1:1", name := "Card", nodeType := "FRAME", width := 40.0, height := 20.0 } []
    let page : Scene.Node :=
      .mk { id := "0:1", name := "Page", nodeType := "FRAME", width := 400.0, height := 300.0 } []
    let s := { Settings.defaults with responsiveRoot := true }
    ∃ root, Design.build s (some page) [card] = .ok [root] ∧ s.responsiveRoot = true ∧
      root.box.layout.sizing.horizontal = .fixed 40.0 ∧
      root.box.layout.sizing.horizontal ≠ .fill := by
  intro card page s
  exact ⟨_, rfl, rfl, rfl, nofun⟩

end

end Design

end Handoff
