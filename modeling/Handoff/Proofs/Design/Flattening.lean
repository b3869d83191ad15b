import Handoff.Proofs.Design.Correspondence
import Handoff.Proofs.Scene.Place

/-!
Bare groups are a translation.

A node in bare groups that only pass it on has the design that it has by itself, but for its
offset: `Design.ofSelection_wraps`.  Names, ids and the other nodes are the same, and so is what
the design leaves out.  `Node.DifferAt` compares two forests that are the same but for one box.
-/

namespace Handoff

namespace Design

/-! ## Boxes elsewhere -/

/-- The placement of a node that lies at a point. -/
def Placement.movedTo (x y : Float) : Placement → Placement
  | absolute _ _ => absolute x y
  | root => root
  | flow => flow

/-- The box with its node at a point, and its own offset there if it is placed at one. -/
def Box.movedTo (x y : Float) (b : Box) : Box :=
  { b with
    geometry := { b.geometry with x, y }
    layout := { b.layout with placement := b.layout.placement.movedTo x y } }

theorem Box.atRoot_movedTo (x y : Float) (b : Box) :
    (b.movedTo x y).atRoot = b.atRoot.movedTo x y := rfl

/-! ## One box apart -/

/-- Two forests are the same but for one box, which `R` relates to the one in its place. -/
inductive Node.DifferAt (R : Box → Box → Prop) : List Node → List Node → Prop
  | here {b c : Box} (children rest : List Node) (related : R b c) :
    DifferAt R (mk b children :: rest) (mk c children :: rest)
  | inside {nodes others : List Node} (box : Box) (rest : List Node)
    (differ : DifferAt R nodes others) :
    DifferAt R (mk box nodes :: rest) (mk box others :: rest)
  | later {nodes others : List Node} (n : Node) (differ : DifferAt R nodes others) :
    DifferAt R (n :: nodes) (n :: others)

/-- Forests stay one box apart when their trees are placed as roots. -/
theorem Node.DifferAt.asRoot {R : Box → Box → Prop} (closed : ∀ b c, R b c → R b.atRoot c.atRoot)
    {nodes others : List Node} (differ : Node.DifferAt R nodes others) :
    Node.DifferAt R (nodes.map Node.asRoot) (others.map Node.asRoot) := by
  induction differ with
  | here children rest related => exact .here children _ (closed _ _ related)
  | inside box rest differ ih => exact .inside box.atRoot _ differ
  | later n differ ih => exact .later n.asRoot ih

end Design

/-! ## Designs of shifted outlines -/

namespace Outline

open Design (Box Node)
open Scene (Layer)

section

variable {layer : Layer} {dx dy : Float}

theorem placement_moved (l : Layer) (g : Design.Geometry) (x y : Float) (around : Surroundings) :
    l.placement { g with x, y } around = (l.placement g around).movedTo x y := by
  cases around with
  | root => rfl
  | inside mode =>
      cases mode with
      | absolute => rfl
      | flow f =>
          by_cases outOfFlow : l.positioning = .absolute
          · simp only [Layer.placement, if_pos outOfFlow, Design.Placement.movedTo]
          · simp only [Layer.placement, if_neg outOfFlow, Design.Placement.movedTo]

/-- The box of a moved node is that of the node in its own place, moved. -/
theorem box_moved (s : Settings) (around : Surroundings) (name : String) (layer : Layer)
    (id : String) (dx dy : Float) (children below : List Outline) :
    (mk layer id dx dy children).box s around name =
      ((mk layer id 0.0 0.0 below).box s around name).movedTo (layer.x + dx) (layer.y + dy) := by
  have placed := placement_moved layer (mk layer id 0.0 0.0 below).geometry (layer.x + dx)
    (layer.y + dy) around
  simp only [Box.movedTo, box, Layer.layout, Outline.layer, ← placed]
  rfl

/-- A box that carries over the layer, beside the same box at its place with the offset. -/
abbrev Moved (layer : Layer) (dx dy : Float) (b c : Box) : Prop :=
  b.Carries layer ∧ c = b.movedTo (layer.x + dx) (layer.y + dy)

/-- The first node takes the same names as the second, and their designs are one box apart. -/
abbrev DesignsDiffer (R : Box → Box → Prop) (s : Settings) (o p : Outline) : Prop :=
  ∀ (around : Surroundings) (names : Registry) (rest : List Node),
    (p.toDesign s around names).2 = (o.toDesign s around names).2 ∧
      Node.DifferAt R ((o.toDesign s around names).1 :: rest)
        ((p.toDesign s around names).1 :: rest)

/-- Among other nodes, too, what is one box apart by itself is so. -/
theorem listToDesign_differ {R : Box → Box → Prop} {s : Settings} {o p : Outline}
    (differ : DesignsDiffer R s o p) (around : Surroundings) (before after : List Outline) :
    ∀ names : Registry,
      (listToDesign s around names (before ++ p :: after)).2 =
          (listToDesign s around names (before ++ o :: after)).2 ∧
        Node.DifferAt R (listToDesign s around names (before ++ o :: after)).1
          (listToDesign s around names (before ++ p :: after)).1 := by
  induction before with
  | nil =>
      intro names
      have first := differ around names
      simp only [List.nil_append, listToDesign_cons, (first []).1, true_and]
      exact (first _).2
  | cons q before ih =>
      intro names
      have others := ih (q.toDesign s around names).2
      simp only [List.cons_append, listToDesign_cons]
      exact ⟨others.1, .later _ others.2⟩

/-- Shifted outlines take the same names, and their designs are one box apart. -/
theorem toDesign_shifted (s : Settings) {o p : Outline} (shifted : Shifted layer dx dy o p) :
    DesignsDiffer (Moved layer dx dy) s o p := by
  induction shifted with
  | here fallback children =>
      intro around names rest
      rw [toDesign_mk, toDesign_mk]
      refine ⟨rfl, .here _ rest ⟨⟨rfl, rfl, fun given => if_neg given⟩, ?_⟩⟩
      exact box_moved s around _ layer _ dx dy children children
  | under outer id x y before after shifted ih =>
      intro around names rest
      have below := listToDesign_differ ih
      rw [toDesign_mk, toDesign_mk]
      exact ⟨(below _ before after _).1, .inside _ rest (below _ before after _).2⟩

end

/-! ## What a shifted outline leaves out -/

theorem warnings_cons (s : Settings) (o : Outline) (rest : List Outline) :
    warnings s (o :: rest) =
      Warning.about o.id (o.refusals s) ++ warnings s o.children ++ warnings s rest := by
  cases o with
  | mk layer id dx dy children =>
      simp only [warnings, preorderList, preorder, List.cons_append, List.flatMap_cons,
        List.flatMap_append, List.append_assoc]
      rfl

theorem warnings_append (s : Settings) (first second : List Outline) :
    warnings s (first ++ second) = warnings s first ++ warnings s second := by
  induction first with
  | nil => rfl
  | cons o rest ih => simp only [List.cons_append, warnings_cons, ih, List.append_assoc]

theorem warnings_shifted (s : Settings) {layer : Layer} {dx dy : Float} {o p : Outline}
    (shifted : Shifted layer dx dy o p) : warnings s [p] = warnings s [o] := by
  induction shifted with
  | here fallback children => rfl
  | @under o p outer id x y before after shifted ih =>
      have apart : ∀ q : Outline, q :: after = [q] ++ after := fun _ => rfl
      rw [warnings_cons, warnings_cons]
      simp only [children, warnings_append, apart p, apart o, ih]
      rfl

/-- Shifted outlines in a row: the names, what is left out, and the designs. -/
theorem design_anyShifted (s : Settings) {layer : Layer} {dx dy : Float} {shown : Bool}
    {first second : List Outline} (shifted : AnyShifted layer dx dy shown first second)
    (around : Surroundings) (names : Registry) :
    let plain := listToDesign s around names first
    let whole := listToDesign s around names second
    whole.2 = plain.2 ∧ warnings s second = warnings s first ∧
      if shown then Node.DifferAt (Moved layer dx dy) plain.1 whole.1 else whole.1 = plain.1 := by
  intro plain whole
  cases shifted with
  | hidden outlines => exact ⟨rfl, rfl, rfl⟩
  | @shown o p before after shifted =>
      have designs := listToDesign_differ (toDesign_shifted s shifted) around before after names
      have apart : ∀ q : Outline, q :: after = [q] ++ after := fun _ => rfl
      have left : warnings s (before ++ p :: after) = warnings s (before ++ o :: after) := by
        rw [apart p, apart o, warnings_append, warnings_append, warnings_append, warnings_append,
          warnings_shifted s shifted]
      exact ⟨designs.1, left, designs.2⟩

end Outline

namespace Design

/-- A kept node in a chain of visible groups, each of which passes on the next: with the chain in
place the selection takes the same names and leaves out the same as with the node itself in the
place of the outermost group, and the designs are the same but for one box.  It is that of the
node, and all that differs is where it lies: the offsets of the groups, summed from the outermost,
are added to its own.  Where the place is not shown, the designs are the same. -/
theorem ofSelection_wraps (s : Settings) (host : Option Scene.Node) (names : Registry)
    {place : Scene.Place} {n g : Scene.Node} {groups : List Scene.Layer}
    (wraps : n.Wraps groups g) (visible : n.layer.visible = true) (kept : n.passThrough? = none)
    (keeps : place.Keeps g) :
    let plain := ofSelection s host (place.fill n) names
    let whole := ofSelection s host (place.fill g) names
    let x := n.layer.x + Outline.total (·.x) 0.0 groups
    let y := n.layer.y + Outline.total (·.y) 0.0 groups
    whole.2 = plain.2 ∧ warningsOf s (place.fill g) = warningsOf s (place.fill n) ∧
      if place.isShown then
        Node.DifferAt (fun b c => b.Carries n.layer ∧ c = b.movedTo x y) plain.1 whole.1
      else whole.1 = plain.1 := by
  intro plain whole x y
  have outlines := Outline.shifted_of_wraps wraps visible kept keeps
  obtain ⟨taken, left, designs⟩ :=
    Outline.design_anyShifted s outlines (.ofParent s host) names
  refine ⟨taken, left, ?_⟩
  by_cases shown : place.isShown = true
  · rw [if_pos shown] at designs ⊢
    refine designs.asRoot fun b c related => ⟨⟨?_, ?_, ?_⟩, ?_⟩
    · exact related.1.kind
    · exact related.1.name
    · exact related.1.id
    · rw [related.2, Box.atRoot_movedTo]
  · rw [if_neg shown] at designs ⊢
    exact congrArg (List.map Node.asRoot) designs

/-- A picture in two groups on a frame, between a line and a text.  The picture is placed at the
offset of the groups and its own. -/
theorem ofSelection_wraps_picture :
    let picture : Scene.Node := .mk { id := "1:4", nodeType := "RECTANGLE", x := 1.0, y := 2.0 } []
    let inner : Scene.Node :=
      .mk { id := "1:3", nodeType := "GROUP", x := 10.0, y := 20.0 } [picture]
    let outer : Scene.Node :=
      .mk { id := "1:2", nodeType := "GROUP", x := 100.0, y := 200.0 }
        [inner, .mk { nodeType := "TEXT", visible := false } []]
    let place : Scene.Place :=
      .inside (.root [] []) { id := "1:1", nodeType := "FRAME" } [.mk { nodeType := "LINE" } []]
        [.mk { nodeType := "TEXT" } []]
    let plain := ofSelection .defaults none (place.fill picture) .empty
    let whole := ofSelection .defaults none (place.fill outer) .empty
    picture.Wraps [outer.layer, inner.layer] outer ∧ picture.layer.visible = true ∧
      picture.passThrough? = none ∧ place.Keeps outer ∧
      whole.2 = plain.2 ∧
      warningsOf .defaults (place.fill outer) = warningsOf .defaults (place.fill picture) ∧
      Node.DifferAt (fun b c => b.Carries picture.layer ∧ c = b.movedTo 111.0 222.0) plain.1
        whole.1 := by
  intro picture inner outer place plain whole
  have outward : outer.passThrough? = some inner :=
    Scene.Node.passThrough?_eq_some_iff.mpr ⟨by decide +kernel, rfl, by decide⟩
  have inward : inner.passThrough? = some picture :=
    Scene.Node.passThrough?_eq_some_iff.mpr ⟨by decide +kernel, rfl, by decide⟩
  have wraps : picture.Wraps [outer.layer, inner.layer] outer :=
    .group rfl outward (.group rfl inward .none)
  have keeps : place.Keeps outer := ⟨rfl, rfl, rfl⟩
  have summed := ofSelection_wraps .defaults none .empty wraps rfl rfl keeps
  have x : picture.layer.x + Outline.total (·.x) 0.0 [outer.layer, inner.layer] = 111.0 := by
    decide +kernel
  have y : picture.layer.y + Outline.total (·.y) 0.0 [outer.layer, inner.layer] = 222.0 := by
    decide +kernel
  rw [x, y] at summed
  exact ⟨wraps, rfl, rfl, keeps, summed⟩

end Design

end Handoff
