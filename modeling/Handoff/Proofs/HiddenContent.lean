import Handoff.Conversion
import Handoff.Proofs.Design.Correspondence

/-!
What is hidden in a scene leaves no trace.

`Node.withoutHiddenAll` deletes the hidden nodes of a scene with all below them, and the hidden
paints and effects of the nodes that stay.  Every question that is asked of a layer on the way
to a design has the same answer afterwards (`Layer.isBareGroup_withoutHidden`,
`Layer.kind?_withoutHidden`, `Layer.style_withoutHidden`, …), so outlines differ in nothing but
what was deleted on their layers (`Outline.ofNode_withoutHidden`), and designs do not differ at
all.

Deleting a node moves the ones after it to other places among their siblings.  A node without
an id is called by its place, so the main statement, `convert_withoutHidden`, is about scenes
whose visible nodes have ids of their own.
-/

namespace Handoff

namespace Scene

/-! ## Deleting what is hidden -/

/-- A layer without its hidden paints and effects. -/
def Layer.withoutHidden (l : Layer) : Layer :=
  { l with
    fills := l.fills.filter (·.visible)
    strokes := l.strokes.filter (·.visible)
    effects := l.effects.filter (·.visible) }

mutual

/-- A node without what is hidden on it and below it. -/
def Node.withoutHidden : Node → Node
  | mk layer children => mk layer.withoutHidden (Node.withoutHiddenAll children)

/-- The visible ones of some nodes, without what is hidden on them and below them. -/
def Node.withoutHiddenAll : List Node → List Node
  | [] => []
  | n :: rest =>
    if n.layer.visible then n.withoutHidden :: Node.withoutHiddenAll rest
    else Node.withoutHiddenAll rest

end

mutual

/-- A node, if it is visible, has an id of its own, and so have the visible nodes below it. -/
def Node.Identified : Node → Prop
  | mk layer children => layer.visible = true → layer.id ≠ "" ∧ Node.AllIdentified children

/-- The visible ones of some nodes have ids of their own, and so have the visible nodes below
them. -/
def Node.AllIdentified : List Node → Prop
  | [] => True
  | n :: rest => n.Identified ∧ Node.AllIdentified rest

end

theorem Node.AllIdentified.of_mem : ∀ {nodes : List Node}, Node.AllIdentified nodes →
    ∀ n ∈ nodes, n.Identified
  | first :: rest, identified, n, member => by
      rcases List.mem_cons.mp member with rfl | later
      · exact identified.1
      · exact Node.AllIdentified.of_mem identified.2 n later

theorem Node.layer_withoutHidden (n : Node) : n.withoutHidden.layer = n.layer.withoutHidden := by
  cases n with
  | mk layer children =>
      rw [Node.withoutHidden]
      rfl

theorem Node.children_withoutHidden (n : Node) :
    n.withoutHidden.children = Node.withoutHiddenAll n.children := by
  cases n with
  | mk layer children =>
      rw [Node.withoutHidden]
      rfl

theorem Node.withoutHiddenAll_eq_map (nodes : List Node) :
    Node.withoutHiddenAll nodes = (nodes.filter (·.layer.visible)).map Node.withoutHidden := by
  induction nodes with
  | nil =>
      rw [Node.withoutHiddenAll]
      rfl
  | cons n rest ih =>
      rw [Node.withoutHiddenAll, ih]
      by_cases visible : n.layer.visible = true
      · rw [if_pos visible, List.filter_cons, if_pos visible, List.map_cons]
      · rw [if_neg visible, List.filter_cons, if_neg visible]

/-! ## Questions to a layer -/

section

variable (l : Layer)

theorem Layer.hasVisualStyle_withoutHidden :
    l.withoutHidden.hasVisualStyle = l.hasVisualStyle := by
  simp [Layer.hasVisualStyle, Layer.withoutHidden, List.any_filter]

theorem Layer.isBareGroup_withoutHidden : l.withoutHidden.isBareGroup = l.isBareGroup := by
  unfold Layer.isBareGroup
  rw [l.hasVisualStyle_withoutHidden]
  rfl

theorem Layer.hasImageFill_withoutHidden : l.withoutHidden.hasImageFill = l.hasImageFill := by
  simp [Layer.hasImageFill, Layer.withoutHidden, List.any_filter]

theorem Layer.kind?_withoutHidden : l.withoutHidden.kind? = l.kind? := by
  unfold Layer.kind?
  rw [l.hasImageFill_withoutHidden]
  rfl

theorem Layer.kind_withoutHidden : l.withoutHidden.kind = l.kind := by
  unfold Layer.kind
  rw [l.kind?_withoutHidden]

/-- Only what is visible shows, so looking for visible paints first finds no fewer. -/
theorem filter_shows_of_visible (paints : List Paint) :
    (paints.filter (·.visible)).filter Paint.shows = paints.filter Paint.shows := by
  rw [List.filter_filter]
  refine List.filter_congr fun p _ => ?_
  simp only [Paint.shows, Bool.and_comm, Bool.and_self_left]

variable (s : Settings)

theorem Layer.fillResults_withoutHidden : l.withoutHidden.fillResults s = l.fillResults s := by
  unfold Layer.fillResults
  rw [Layer.withoutHidden, filter_shows_of_visible]

theorem Layer.strokeResults_withoutHidden :
    l.withoutHidden.strokeResults s = l.strokeResults s := by
  unfold Layer.strokeResults
  rw [Layer.withoutHidden, filter_shows_of_visible]

theorem Layer.effectResults_withoutHidden :
    l.withoutHidden.effectResults s = l.effectResults s := by
  unfold Layer.effectResults
  rw [Layer.withoutHidden, List.filter_filter]
  simp only [Bool.and_self]

theorem Layer.style_withoutHidden (kind : Design.Kind) :
    l.withoutHidden.style s kind = l.style s kind := by
  unfold Layer.style
  rw [l.fillResults_withoutHidden s, l.strokeResults_withoutHidden s,
    l.effectResults_withoutHidden s]
  rfl

theorem Layer.refusals_withoutHidden : l.withoutHidden.refusals s = l.refusals s := by
  unfold Layer.refusals
  rw [l.fillResults_withoutHidden s, l.strokeResults_withoutHidden s,
    l.effectResults_withoutHidden s]

end

/-! ## Stand-ins -/

/-- Deleting hidden children leaves the visible ones, and all that are left are visible. -/
theorem Node.filter_withoutHiddenAll (nodes : List Node) :
    (Node.withoutHiddenAll nodes).filter (·.layer.visible) =
      (nodes.filter (·.layer.visible)).map Node.withoutHidden := by
  rw [Node.withoutHiddenAll_eq_map, List.filter_eq_self]
  intro n member
  obtain ⟨m, among, rfl⟩ := List.mem_map.mp member
  rw [m.layer_withoutHidden]
  exact (List.mem_filter.mp among).2

/-- The stand-in of a node stays its stand-in. -/
theorem Node.passThrough?_withoutHidden (n : Node) :
    n.withoutHidden.passThrough? = n.passThrough?.map Node.withoutHidden := by
  unfold Node.passThrough?
  rw [n.layer_withoutHidden, n.children_withoutHidden, n.layer.isBareGroup_withoutHidden,
    Node.filter_withoutHiddenAll]
  generalize n.children.filter (·.layer.visible) = shown
  split
  · rcases shown with _ | ⟨only, _ | ⟨second, rest⟩⟩
    · rfl
    · have positioning : only.withoutHidden.layer.positioning = only.layer.positioning := by
        rw [only.layer_withoutHidden]
        rfl
      simp only [List.map_cons, List.map_nil, positioning]
      split <;> rfl
    · rfl
  · rfl

end Scene

/-! ## Outlines -/

namespace Outline

open Scene (Node)

mutual

/-- An outline whose layers have lost what is hidden on them. -/
def withoutHidden : Outline → Outline
  | mk layer id dx dy children =>
    mk layer.withoutHidden id dx dy (withoutHiddenAll children)

/-- Outlines whose layers have lost what is hidden on them. -/
def withoutHiddenAll : List Outline → List Outline
  | [] => []
  | o :: rest => o.withoutHidden :: withoutHiddenAll rest

end

theorem withoutHiddenAll_eq_map (outlines : List Outline) :
    withoutHiddenAll outlines = outlines.map withoutHidden := by
  induction outlines with
  | nil =>
      rw [withoutHiddenAll]
      rfl
  | cons o rest ih => rw [withoutHiddenAll, ih, List.map_cons]

/-- If outlines of single nodes do not depend on what is hidden, those of nodes in turn do not,
wherever their indices begin. -/
theorem ofChildren_withoutHidden {parent : String} : ∀ {nodes : List Node},
    (∀ n ∈ nodes, ∀ fallback fallback' dx dy,
      ofNode fallback dx dy n.withoutHidden = (ofNode fallback' dx dy n).map withoutHidden) →
    ∀ index index' : Nat,
      ofChildren parent index (Node.withoutHiddenAll nodes) =
        (ofChildren parent index' nodes).map withoutHidden
  | [], _, index, index' => by
      rw [Node.withoutHiddenAll, ofChildren, ofChildren]
      rfl
  | n :: rest, each, index, index' => by
      have later (index index' : Nat) :
          ofChildren parent index (Node.withoutHiddenAll rest) =
            (ofChildren parent index' rest).map withoutHidden :=
        ofChildren_withoutHidden (fun m member => each m (List.mem_cons_of_mem n member)) _ _
      rw [Node.withoutHiddenAll, ofChildren, List.map_append]
      -- Only a visible node counts on both sides, so the indices drift apart from here.
      by_cases visible : n.layer.visible = true
      · rw [if_pos visible, ofChildren, later (index + 1) (index' + 1),
          each n List.mem_cons_self _ (childIdentity parent index')]
        cases ofNode (childIdentity parent index') 0.0 0.0 n <;> rfl
      · rw [if_neg visible, ofNode_hidden (Bool.eq_false_iff.mpr visible),
          later index (index' + 1)]
        rfl

/-- The outline of a node that is identified depends neither on what is hidden on and below it
nor on what identifies nodes without an id. -/
theorem ofNode_withoutHidden (n : Node) : n.Identified →
    ∀ (fallback fallback' : String) (dx dy : Float),
      ofNode fallback dx dy n.withoutHidden = (ofNode fallback' dx dy n).map withoutHidden := by
  have visible_iff : ∀ m : Node, m.withoutHidden.layer.visible = m.layer.visible := by
    intro m
    rw [m.layer_withoutHidden]
    rfl
  have below : ∀ {m : Node}, m.layer.visible = true → m.Identified →
      m.layer.id ≠ "" ∧ ∀ child ∈ m.children, child.Identified := by
    rintro ⟨layer, children⟩ visible identified
    exact ⟨(identified visible).1, (identified visible).2.of_mem⟩
  -- The fallbacks differ because the place of the node may have changed; both are out of use
  -- as soon as a node is kept, since that node has an id.
  induction n using Node.shownInduction with
  | hidden n hidden =>
      intro _ fallback fallback' dx dy
      rw [ofNode_hidden hidden, ofNode_hidden ((visible_iff n).trans hidden)]
      rfl
  | passThrough n child visible found ih =>
      intro identified fallback fallback' dx dy
      have found' : n.withoutHidden.passThrough? = some child.withoutHidden := by
        rw [n.passThrough?_withoutHidden, found]
        rfl
      rw [ofNode_passThrough ((visible_iff n).trans visible) found',
        ofNode_passThrough visible found, n.layer_withoutHidden]
      exact ih ((below visible identified).2 child (Node.passThrough?_mem found).1) _ _ _ _
  | kept n visible kept ih =>
      intro identified fallback fallback' dx dy
      obtain ⟨given, children⟩ := below visible identified
      have kept' : n.withoutHidden.passThrough? = none := by
        rw [n.passThrough?_withoutHidden, kept]
        rfl
      rw [ofNode_kept ((visible_iff n).trans visible) kept', ofNode_kept visible kept,
        n.layer_withoutHidden, n.children_withoutHidden, n.layer.kind_withoutHidden]
      have same : identity n.layer.withoutHidden fallback = identity n.layer fallback' :=
        (if_neg given).trans (if_neg given).symm
      rw [same, Option.map_some, withoutHidden, withoutHiddenAll_eq_map]
      split
      · rw [ofChildren_withoutHidden (fun child member => ih child member (children child member))]
      · rfl

theorem ofRoots_withoutHidden {roots : List Node} (identified : Node.AllIdentified roots) :
    ofRoots (Node.withoutHiddenAll roots) = (ofRoots roots).map withoutHidden :=
  ofChildren_withoutHidden
    (fun n member => ofNode_withoutHidden n (identified.of_mem n member)) 0 0

/-! ## Designs -/

section

variable (s : Settings)

theorem style_withoutHidden (o : Outline) : o.withoutHidden.style s = o.style s := by
  cases o with
  | mk layer id dx dy children =>
      rw [withoutHidden]
      unfold Outline.style
      simp only [Outline.layer, layer.kind?_withoutHidden, layer.style_withoutHidden]

theorem refusals_withoutHidden (o : Outline) : o.withoutHidden.refusals s = o.refusals s := by
  cases o with
  | mk layer id dx dy children =>
      rw [withoutHidden]
      unfold Outline.refusals
      simp only [Outline.layer, layer.kind?_withoutHidden, layer.refusals_withoutHidden]
      rfl

theorem box_withoutHidden (around : Surroundings) (name : String) (o : Outline) :
    o.withoutHidden.box s around name = o.box s around name := by
  have style := o.style_withoutHidden s
  cases o with
  | mk layer id dx dy children =>
      unfold Outline.box
      rw [style, withoutHidden]
      simp only [Outline.layer, layer.kind_withoutHidden, layer.kind?_withoutHidden]
      rfl

mutual

/-- The design of an outline does not depend on what is hidden on its layers. -/
theorem toDesign_withoutHidden : ∀ (o : Outline) (around : Surroundings) (names : Registry),
    o.withoutHidden.toDesign s around names = o.toDesign s around names
  | mk layer id dx dy children, around, names => by
      have box := fun name => box_withoutHidden s around name (mk layer id dx dy children)
      rw [withoutHidden] at box ⊢
      rw [toDesign_mk, toDesign_mk]
      simp only [layer.kind_withoutHidden, box, listToDesign_withoutHidden children]
      rfl

/-- The designs of outlines do not depend on what is hidden on their layers. -/
theorem listToDesign_withoutHidden : ∀ (outlines : List Outline) (around : Surroundings)
    (names : Registry),
    listToDesign s around names (withoutHiddenAll outlines) =
      listToDesign s around names outlines
  | [], around, names => by rw [withoutHiddenAll]
  | o :: rest, around, names => by
      rw [withoutHiddenAll, listToDesign_cons, listToDesign_cons]
      simp only [toDesign_withoutHidden o, listToDesign_withoutHidden rest]

end

end

mutual

theorem preorder_withoutHidden : ∀ o : Outline,
    o.withoutHidden.preorder = o.preorder.map withoutHidden
  | mk layer id dx dy children => by
      rw [withoutHidden, preorder, preorder, List.map_cons, withoutHidden,
        preorderList_withoutHidden children]

theorem preorderList_withoutHidden : ∀ outlines : List Outline,
    preorderList (withoutHiddenAll outlines) = (preorderList outlines).map withoutHidden
  | [] => by
      rw [withoutHiddenAll, preorderList]
      rfl
  | o :: rest => by
      rw [withoutHiddenAll, preorderList, preorderList, List.map_append,
        preorder_withoutHidden o, preorderList_withoutHidden rest]

end

theorem warnings_withoutHidden (s : Settings) (outlines : List Outline) :
    warnings s (withoutHiddenAll outlines) = warnings s outlines := by
  have id : ∀ o : Outline, o.withoutHidden.id = o.id := by
    rintro ⟨layer, id, dx, dy, children⟩
    rw [withoutHidden]
    rfl
  unfold warnings
  rw [preorderList_withoutHidden, List.flatMap_map]
  simp only [id, refusals_withoutHidden s]

end Outline

/-! ## Conversions -/

section

variable (s : Settings) {roots : List Scene.Node}
  (identified : Scene.Node.AllIdentified roots)

theorem Surroundings.ofParent_withoutHidden (parent : Option Scene.Node) :
    Surroundings.ofParent s (parent.map Scene.Node.withoutHidden) =
      Surroundings.ofParent s parent := by
  cases parent with
  | none => rfl
  | some node =>
      simp only [Option.map_some, Surroundings.ofParent, node.layer_withoutHidden,
        node.layer.kind_withoutHidden]
      rfl

include identified

theorem Design.ofSelection_withoutHidden (parent : Option Scene.Node) (names : Registry) :
    Design.ofSelection s parent (Scene.Node.withoutHiddenAll roots) names =
      Design.ofSelection s parent roots names := by
  unfold Design.ofSelection
  rw [Outline.ofRoots_withoutHidden identified, ← Outline.withoutHiddenAll_eq_map,
    Outline.listToDesign_withoutHidden]

theorem Design.warningsOf_withoutHidden :
    Design.warningsOf s (Scene.Node.withoutHiddenAll roots) = Design.warningsOf s roots := by
  unfold Design.warningsOf
  rw [Outline.ofRoots_withoutHidden identified, ← Outline.withoutHiddenAll_eq_map,
    Outline.warnings_withoutHidden]

end

/-- Whatever is hidden in a selection whose visible nodes have ids of their own may be deleted
from it, and from the parent of the selection, without a change to anything that is shown. -/
theorem convert_withoutHidden (s : Settings) (parent : Option Scene.Node)
    {roots : List Scene.Node} (identified : Scene.Node.AllIdentified roots) :
    convert s parent (Scene.Node.withoutHiddenAll roots) = convert s parent roots ∧
      convert s (parent.map Scene.Node.withoutHidden) (Scene.Node.withoutHiddenAll roots) =
        convert s parent roots := by
  have design : Design.build s parent (Scene.Node.withoutHiddenAll roots) =
      Design.build s parent roots := by
    unfold Design.build
    rw [Design.ofSelection_withoutHidden s identified]
  have surroundings : Design.build s (parent.map Scene.Node.withoutHidden)
      (Scene.Node.withoutHiddenAll roots) = Design.build s parent roots := by
    rw [← design]
    unfold Design.build Design.ofSelection
    rw [Surroundings.ofParent_withoutHidden]
  unfold convert
  rw [design, surroundings, Design.warningsOf_withoutHidden s identified]
  exact ⟨rfl, rfl⟩

/-- A frame with a group in it that stands aside for its label once the hidden node before the
label is out of the way. -/
theorem convert_withoutHidden_group :
    let label (fills : List Scene.Paint) (effects : List Scene.Effect) : Scene.Node :=
      .mk { id := "1:3", nodeType := "TEXT", characters := some "Hi", fills, effects } []
    let group (fills : List Scene.Paint) (children : List Scene.Node) : Scene.Node :=
      .mk { id := "1:2", nodeType := "GROUP", fills } children
    let frame (children : List Scene.Node) : Scene.Node :=
      .mk { id := "1:1", nodeType := "FRAME" } children
    let hidden : Scene.Node := .mk { nodeType := "STICKY", visible := false } [label [] []]
    let drawn := [frame [hidden, group [{ visible := false }]
      [hidden, label [{}, { visible := false }] [{ visible := false }]]]]
    let s := Settings.defaults
    Scene.Node.AllIdentified drawn ∧
      Scene.Node.withoutHiddenAll drawn = [frame [group [] [label [{}] []]]] ∧
      convert s none (Scene.Node.withoutHiddenAll drawn) = convert s none drawn := by
  intro label group frame hidden drawn s
  have identified : Scene.Node.AllIdentified drawn := by
    simp [drawn, frame, hidden, group, label, Scene.Node.AllIdentified, Scene.Node.Identified]
  exact ⟨identified, rfl, (convert_withoutHidden s none identified).1⟩

end Handoff
