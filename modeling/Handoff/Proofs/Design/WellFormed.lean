import Handoff.Proofs.Design.Omissions

/-!
What every target may rely on when it is given a design.

`Box.WellFormed` says which parts of the style and layout of a node belong together, and
`Node.WellFormed` adds which nodes have children.  Each part is shown where it is decided:
for the text and the stroke of a style, for the stops of a gradient, for the flow of an
auto-layout.  `Node.FollowsAll.exists_source` carries them from one node to all, since every
node of a design follows a node of what is shown.

The main statement on designs is `Design.wellFormed_of_mem_build`.
-/

namespace Handoff

open Design (Box Node Kind)

/-! ## Nodes below nodes -/

namespace Scene

mutual

/-- A node, then all below it. -/
def Node.preorder : Node → List Node
  | mk layer children => mk layer children :: Node.preorderList children

/-- The nodes of a forest, each before those below it. -/
def Node.preorderList : List Node → List Node
  | [] => []
  | n :: rest => n.preorder ++ Node.preorderList rest

end

theorem Node.mem_preorderList {t : Node} {forest : List Node} :
    t ∈ Node.preorderList forest ↔ ∃ n ∈ forest, t ∈ n.preorder := by
  induction forest with
  | nil => simp [Node.preorderList]
  | cons n rest ih => simp [Node.preorderList, ih]

/-- What is shown for a node has children only where they can be held. -/
theorem Node.children_of_mem_shown (n : Node) :
    ∀ t ∈ Node.preorderList n.shown, t.layer.kind.holdsChildren = false → t.children = [] := by
  induction n using Node.shownInduction with
  | hidden n hidden =>
      intro t member
      rw [Node.shown_hidden hidden] at member
      cases member
  | passThrough n child visible found ih =>
      rw [Node.shown_passThrough visible found]
      exact ih
  | kept n visible kept ih =>
      intro t member leaf
      rw [Node.shown_kept visible kept] at member
      simp only [Node.preorderList, Node.preorder, List.append_nil, List.mem_cons] at member
      rcases member with rfl | below
      · exact if_neg (Bool.eq_false_iff.mp leaf)
      · split at below
        · obtain ⟨m, among, inside⟩ := Node.mem_preorderList.mp below
          obtain ⟨child, isChild, shown⟩ := List.mem_flatMap.mp among
          exact ih child isChild t (Node.mem_preorderList.mpr ⟨m, shown, inside⟩) leaf
        · cases below

/-- What is shown of a selection has children only where they can be held. -/
theorem children_of_mem_shownForest {roots : List Node} {t : Node}
    (member : t ∈ Node.preorderList (shownForest roots))
    (leaf : t.layer.kind.holdsChildren = false) : t.children = [] := by
  obtain ⟨m, among, inside⟩ := Node.mem_preorderList.mp member
  obtain ⟨root, -, shown⟩ := List.mem_flatMap.mp among
  exact root.children_of_mem_shown t (Node.mem_preorderList.mpr ⟨m, shown, inside⟩) leaf

end Scene

namespace Design

section

variable {R : Agreement}

mutual

/-- Every node of a tree follows a node of the tree that it is compared with. -/
theorem Node.Follows.exists_source {above : Option Box} : ∀ {source : Scene.Node} {n : Node},
    Node.Follows R above source n →
      ∀ m ∈ n.preorder, ∃ t ∈ source.preorder, ∃ around, Node.Follows R around t m
  | .mk layer sources, .mk box children, follows, m, member => by
      rw [Node.preorder, List.mem_cons] at member
      rw [Scene.Node.preorder]
      rcases member with rfl | below
      · exact ⟨_, List.mem_cons_self, above, follows⟩
      · obtain ⟨t, inside, around, agrees⟩ := Node.FollowsAll.exists_source follows.2 m below
        exact ⟨t, List.mem_cons_of_mem _ inside, around, agrees⟩

/-- Every node of a forest follows a node of the forest that it is compared with. -/
theorem Node.FollowsAll.exists_source {above : Option Box} :
    ∀ {sources : List Scene.Node} {nodes : List Node}, Node.FollowsAll R above sources nodes →
      ∀ m ∈ Node.preorderList nodes,
        ∃ t ∈ Scene.Node.preorderList sources, ∃ around, Node.Follows R around t m
  | [], [], _, m, member => by cases member
  | source :: sources, n :: rest, follows, m, member => by
      rw [Node.preorderList, List.mem_append] at member
      rw [Scene.Node.preorderList]
      rcases member with first | later
      · obtain ⟨t, inside, found⟩ := Node.Follows.exists_source follows.1 m first
        exact ⟨t, List.mem_append_left _ inside, found⟩
      · obtain ⟨t, inside, found⟩ := Node.FollowsAll.exists_source follows.2 m later
        exact ⟨t, List.mem_append_right _ inside, found⟩

end

end

/-! ## Well-formed nodes -/

/-- The parts of a box go together. -/
structure Box.WellFormed (b : Box) : Prop where
  text_iff : b.style.text.isSome = true ↔ b.kind = .text
  stroke_iff : b.style.stroke.isSome = true ↔ b.style.strokes ≠ []
  stops : ∀ p ∈ b.style.fills ++ b.style.strokes, ∀ angle stops,
    p.fill = .linearGradient angle stops → stops ≠ []
  flow_kind : ∀ f, b.layout.mode = .flow f → b.kind = .container ∨ b.kind = .component
  gap : ∀ f, b.layout.mode = .flow f → f.distribution = .spaceBetween → f.gap = 0.0
  baseline : ∀ f, b.layout.mode = .flow f → f.alignment = .baseline → f.direction = .horizontal
  unsupported : b.unsupportedType.isSome = true → b.kind = .container ∧ b.style = .plain

/-- A node is well formed if its box is and it has children only on a kind that holds
them. -/
structure Node.WellFormed (n : Node) : Prop where
  box : n.box.WellFormed
  children : n.children ≠ [] →
    n.box.kind = .container ∨ n.box.kind = .group ∨ n.box.kind = .component

theorem Kind.holdsChildren_iff {kind : Kind} :
    kind.holdsChildren = true ↔ kind = .container ∨ kind = .group ∨ kind = .component := by
  cases kind <;> simp [Kind.holdsChildren]

end Design

namespace Scene

/-! ## Styles -/

theorem Layer.text_style (s : Settings) (kind : Kind) (l : Layer) :
    (l.style s kind).text.isSome = true ↔ kind = .text := by
  unfold Layer.style
  by_cases text : kind = .text <;> simp [text]

theorem Layer.stroke_style (s : Settings) (kind : Kind) (l : Layer) :
    (l.style s kind).stroke.isSome = true ↔ (l.style s kind).strokes ≠ [] := by
  unfold Layer.style
  cases counterparts (l.strokeResults s) <;> simp

/-- A gradient of a design has the stops that the paint must have had. -/
theorem Paint.Becomes.stops_ne_nil {s : Settings} {width height angle : Float} {p : Paint}
    {q : Design.Paint} {stops : List Design.GradientStop} (becomes : p.Becomes s width height q)
    (gradient : q.fill = .linearGradient angle stops) : stops ≠ [] := by
  cases becomes with
  | color | image => cases gradient
  | gradient type present =>
      cases gradient
      exact List.map_eq_nil_iff.not.mpr present

/-- Every counterpart was made from something. -/
theorem exists_of_mem_counterparts {α β : Type} {f : α → Except Reason β} {items : List α}
    {b : β} (member : b ∈ counterparts (items.map f)) : ∃ a ∈ items, f a = .ok b := by
  obtain ⟨result, among, kept⟩ := List.mem_filterMap.mp member
  obtain ⟨a, source, rfl⟩ := List.mem_map.mp among
  refine ⟨a, source, ?_⟩
  cases result : f a with
  | ok made =>
      rw [result] at kept
      exact congrArg Except.ok (Option.some.inj kept)
  | error reason =>
      rw [result] at kept
      cases kept

/-- The gradients among the counterparts of paints have stops. -/
theorem stops_of_mem_counterparts {s : Settings} {width height : Float} {paints : List Paint}
    {q : Design.Paint} (member : q ∈ counterparts (paints.map (·.toDesign s width height)))
    {angle : Float} {stops : List Design.GradientStop}
    (gradient : q.fill = .linearGradient angle stops) : stops ≠ [] := by
  obtain ⟨p, -, made⟩ := exists_of_mem_counterparts member
  have answer := p.answer_toDesign s width height
  rw [made] at answer
  exact answer.2.stops_ne_nil gradient

theorem Layer.stops_style (s : Settings) (kind : Kind) (l : Layer) :
    ∀ p ∈ (l.style s kind).fills ++ (l.style s kind).strokes, ∀ angle stops,
      p.fill = .linearGradient angle stops → stops ≠ [] := by
  intro p member angle stops gradient
  rcases List.mem_append.mp member with fill | stroke
  · exact stops_of_mem_counterparts fill gradient
  · rw [Layer.style, l.strokeResults_eq s] at stroke
    exact stops_of_mem_counterparts stroke gradient

/-! ## Flows -/

/-- Only containers and components flow, and as the auto-layout in force says. -/
theorem Layer.mode_eq_flow {s : Settings} {kind : Kind} {l : Layer} {f : Design.Flow}
    (flow : l.mode s kind = .flow f) :
    (kind = .container ∨ kind = .component) ∧
      ∃ a, l.autoLayoutInForce? s = some a ∧ a.flow? = some f := by
  have inForce (flow : Layer.mode s .container l = .flow f) :
      ∃ a, l.autoLayoutInForce? s = some a ∧ a.flow? = some f := by
    simp only [Layer.mode] at flow
    split at flow
    · rename_i g found
      cases flow
      exact Option.bind_eq_some_iff.mp found
    · cases flow
  cases kind with
  | container => exact ⟨.inl rfl, inForce flow⟩
  | component => exact ⟨.inr rfl, inForce flow⟩
  | text | vector shape | image | group => cases flow

/-- Where the free space goes between the items there is no gap besides. -/
theorem AutoLayout.gap_of_flow? {a : AutoLayout} {f : Design.Flow} (flow : a.flow? = some f)
    (between : f.distribution = .spaceBetween) : f.gap = 0.0 := by
  obtain ⟨direction, -, rfl⟩ := Option.map_eq_some_iff.mp flow
  exact if_pos between

/-- Only a horizontal flow has a common baseline. -/
theorem AutoLayout.direction_of_flow? {a : AutoLayout} {f : Design.Flow}
    (flow : a.flow? = some f) (baseline : f.alignment = .baseline) :
    f.direction = .horizontal := by
  obtain ⟨direction, -, rfl⟩ := Option.map_eq_some_iff.mp flow
  cases direction with
  | horizontal => rfl
  | vertical =>
      have never : a.counterAlign.alignment .vertical ≠ .baseline := by
        cases a.counterAlign <;> simp [CounterAlign.alignment]
      exact (never baseline).elim

end Scene

namespace Design

/-- The box of an outline is well formed, wherever it is placed. -/
theorem wellFormed_box (s : Settings) (around : Surroundings) (name : String) (o : Outline) :
    (o.box s around name).WellFormed where
  text_iff := by
    unfold Outline.box Outline.style Scene.Layer.kind
    cases o.layer.kind? with
    | some kind => exact o.layer.text_style s kind
    | none => simp [Style.plain]
  stroke_iff := by
    unfold Outline.box Outline.style
    cases o.layer.kind? with
    | some kind => exact o.layer.stroke_style s kind
    | none => simp [Style.plain]
  stops := by
    unfold Outline.box Outline.style
    cases o.layer.kind? with
    | some kind => exact o.layer.stops_style s kind
    | none => simp [Style.plain]
  flow_kind := by
    intro f flow
    exact (Scene.Layer.mode_eq_flow flow).1
  gap := by
    intro f flow between
    obtain ⟨-, a, -, converted⟩ := Scene.Layer.mode_eq_flow flow
    exact Scene.AutoLayout.gap_of_flow? converted between
  baseline := by
    intro f flow baseline
    obtain ⟨-, a, -, converted⟩ := Scene.Layer.mode_eq_flow flow
    exact Scene.AutoLayout.direction_of_flow? converted baseline
  unsupported := by
    unfold Outline.box Outline.style Scene.Layer.kind
    cases o.layer.kind? with
    | some kind => simp
    | none => simp

/-- Being placed as a root changes nothing of what belongs together. -/
theorem Box.WellFormed.atRoot {b : Box} (formed : b.WellFormed) : b.atRoot.WellFormed :=
  ⟨formed.text_iff, formed.stroke_iff, formed.stops, formed.flow_kind, formed.gap,
    formed.baseline, formed.unsupported⟩

/-- Every node of a design is well formed. -/
theorem wellFormed_of_mem_build {s : Settings} {host : Option Scene.Node}
    {roots : List Scene.Node} {forest : List Node}
    (built : Design.build s host roots = .ok forest) {n : Node}
    (member : n ∈ Node.preorderList forest) : n.WellFormed := by
  obtain ⟨rfl, -⟩ := build_eq_ok built
  have follows : Node.FollowsAll (fun _ layer box => box.kind = layer.kind ∧ box.WellFormed) none
      (Scene.shownForest roots) (ofSelection s host roots .empty).1 :=
    followsAll_ofSelection s host roots .empty
      (fun o _ name => ⟨rfl, (wellFormed_box s (.ofParent s host) name o).atRoot⟩)
      (fun o _ above name => ⟨rfl, wellFormed_box s _ name o⟩)
  obtain ⟨source, shown, above, agrees⟩ := follows.exists_source n member
  rcases source with ⟨layer, sources⟩
  rcases n with ⟨box, children⟩
  obtain ⟨⟨kind, formed⟩, below⟩ := agrees
  refine ⟨formed, fun present => ?_⟩
  -- A layer that cannot hold children has none that are shown, and so has its node.
  rw [← Kind.holdsChildren_iff]
  by_contra leaf
  have none : sources = [] := Scene.children_of_mem_shownForest shown
    (Bool.eq_false_iff.mpr fun holds => leaf (kind ▸ holds))
  subst none
  cases children with
  | nil => exact present rfl
  | cons child rest => exact below

end Design

end Handoff
