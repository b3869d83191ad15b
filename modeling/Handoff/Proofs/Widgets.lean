import Handoff.Proofs.Dart.Drawing
import Handoff.Proofs.Swift.Drawing

/-!
Widgets and views lose and double nothing.

The trees of both widget targets are drawn like the design with its flows lined up
(`Dart.drawings_forestWidget`, `Swift.drawings_forestView`).  Beyond what is drawn, the trees
made of the children of a node stand in what is made of the node, in the order in which the
children are lined up (`Dart.sublist_parts_widget`, `Swift.sublist_parts_view`), and where a
SwiftUI flow has its free space between the children, a spacer stands in each gap and nowhere
else (`Swift.spaced_view`).

The main statement is `drawn_of_build`.
-/

namespace Handoff

open Design (Box Node)

/-! ## Spacers -/

namespace Swift

/-- Views in a stack with a spacer in each gap between them and nowhere else. -/
structure SpacedOut (views stacked : List View) : Prop where
  /-- Without the spacers, it is the views. -/
  solid : stacked.filter (·.head != "Spacer()") = views
  length : stacked.length = 2 * views.length - 1
  view : ∀ i : Nat, stacked[2 * i]? = views[i]?
  spacer : ∀ i : Nat, i + 1 < views.length → stacked[2 * i + 1]? = some spacer

theorem filter_intersperse_spacer {views : List View}
    (solid : ∀ v ∈ views, v.head ≠ "Spacer()") :
    (views.intersperse spacer).filter (·.head != "Spacer()") = views := by
  have spaced : ¬ (spacer.head != "Spacer()") = true := by decide
  induction views with
  | nil => rfl
  | cons v rest ih =>
      obtain ⟨own, others⟩ := List.forall_mem_cons.mp solid
      have kept : (v.head != "Spacer()") = true := bne_iff_ne.mpr own
      cases rest with
      | nil => rw [List.intersperse_singleton, List.filter_cons, if_pos kept, List.filter_nil]
      | cons w more =>
          rw [List.intersperse_cons_cons, List.filter_cons, if_pos kept, List.filter_cons,
            if_neg spaced, ih others]

theorem spacedOut_intersperse {views : List View} (solid : ∀ v ∈ views, v.head ≠ "Spacer()") :
    SpacedOut views (views.intersperse spacer) where
  solid := filter_intersperse_spacer solid
  length := List.length_intersperse
  view _ := List.getElem?_intersperse_two_mul
  spacer _ := List.getElem?_intersperse_two_mul_add_one

theorem head_ne_spacer {v : View} {layer : Bool} (drawn : v.drawings layer ≠ []) :
    v.head ≠ "Spacer()" := by
  cases v with
  | mk comment head children modifiers =>
      intro same
      rw [View.drawings, if_pos (show head = "Spacer()" from same)] at drawn
      exact drawn rfl

/-- In the view of a node is the line of the children in its flow, with a spacer in each gap,
and the children at an offset are layers on top of it. -/
structure Spaced (names : Bool) (n : Node) (f : Design.Flow) : Prop where
  line : n.children.any (·.isAbsolute) = false →
    (view names n).children = (stackView f (n.children.map (view names))).children
  layers : n.children.any (·.isAbsolute) = true →
    (view names n).children =
      stackView f ((n.children.filter (!·.isAbsolute)).map (view names)) ::
        (n.children.filter (·.isAbsolute)).map (view names)
  gaps : SpacedOut ((n.children.filter (!·.isAbsolute)).map (view names))
    (stackView f ((n.children.filter (!·.isAbsolute)).map (view names))).children

/-- Where a flow has its free space between the children, there is a spacer in each gap. -/
theorem spaced_view {n : Node} (formed : n.WellFormed) {names : Bool}
    (solid : ∀ c ∈ n.children, (view names c).head ≠ "Spacer()") {f : Design.Flow}
    (mode : n.box.layout.mode = .flow f) (between : f.distribution = .spaceBetween)
    (present : n.children ≠ []) : Spaced names n f := by
  have nonempty : ¬ n.children.isEmpty = true := List.isEmpty_iff.not.mpr present
  -- A node with children is neither a text nor an image nor a shape.
  have base : (view names n).children =
      (containerView n.box (n.children.map fun c => (c, view names c))).children := by
    rw [← (formed.branches present).viewBase]
    cases n with
    | mk box children =>
        rw [view, childViews_eq_map]
        rfl
  rw [containerView, List.isEmpty_map, if_neg nonempty, mode, Node.placedAs_false,
    Node.placedAs_true] at base
  dsimp only at base
  refine ⟨fun flowing => ?_, fun layered => ?_, ?_⟩
  · have flows : ∀ c ∈ n.children, c.isAbsolute = false := by simpa using flowing
    have none : n.children.filter (·.isAbsolute) = [] :=
      List.filter_eq_nil_iff.mpr fun c member => by simp [flows c member]
    have all : n.children.filter (!·.isAbsolute) = n.children :=
      List.filter_eq_self.mpr fun c member => by simp [flows c member]
    rw [base, none, all]
    rfl
  · obtain ⟨c, member, absolute⟩ := List.any_eq_true.mp layered
    rw [base]
    split
    · rename_i nothing
      have among := List.mem_map_of_mem (f := view names) (List.mem_filter.mpr ⟨member, absolute⟩)
      rw [nothing] at among
      cases among
    · rfl
  · rw [stackView, if_pos between]
    refine spacedOut_intersperse fun v member => ?_
    obtain ⟨c, kept, rfl⟩ := List.mem_map.mp member
    exact solid c (List.mem_of_mem_filter kept)

end Swift

/-! ## Both targets -/

/-- How the widgets and views of a forest stand to its nodes. -/
structure Drawn (names : Bool) (forest : List Node) : Prop where
  /-- Each root draws its nodes, lined up. -/
  root : ∀ n ∈ forest,
    (Dart.widget names none n).drawings = [n.arranged.drawing (Dart.legend names)] ∧
      (Swift.view names n).drawings false = [n.arranged.drawing (Swift.legend names)]
  widget : (Dart.forestWidget names forest).drawings =
    Node.drawings (Dart.legend names) (Node.arrangedAll forest)
  view : (Swift.forestView names forest).drawings false =
    Node.drawings (Swift.legend names) (Node.arrangedAll forest)
  /-- In whatever order they are drawn, it is one figure for each node. -/
  widgetOnce : (Drawing.listEntries (Dart.forestWidget names forest).drawings).Perm
    ((Node.preorderList forest).map fun n =>
      ((Dart.legend names).label n.box, (Dart.legend names).figure n.box))
  viewOnce : (Drawing.listEntries ((Swift.forestView names forest).drawings false)).Perm
    ((Node.preorderList forest).map fun n =>
      ((Swift.legend names).label n.box, (Swift.legend names).figure n.box))
  /-- What is made of the children of a node stands in what is made of the node, in the order in
  which the children are lined up. -/
  children : ∀ n ∈ Node.preorderList forest,
    (∀ parent, ((n.box.lineUp n.children).flatMap fun c =>
        (Dart.widget names (some n) c).parts).Sublist (Dart.widget names parent n).parts) ∧
      ((n.box.lineUp n.children).flatMap fun c => (Swift.view names c).parts).Sublist
        (Swift.view names n).parts
  spaced : ∀ n ∈ Node.preorderList forest, ∀ f, n.box.layout.mode = .flow f →
    f.distribution = .spaceBetween → n.children ≠ [] → Swift.Spaced names n f

theorem perm_listEntries_arrangedAll (legend : Legend) (forest : List Node) :
    (Drawing.listEntries (Node.drawings legend (Node.arrangedAll forest))).Perm
      ((Node.preorderList forest).map fun n => (legend.label n.box, legend.figure n.box)) := by
  have same := (Node.boxes_arrangedAll forest).map fun b => (legend.label b, legend.figure b)
  rw [List.map_map, List.map_map] at same
  rw [Node.listEntries_drawings]
  exact same

/-- Both widget targets have one widget or view for each node of a design, and those of the
children of a node in it: in a flow first the children that flow, then those at an offset, and
otherwise as they come. -/
theorem drawn_of_build {s : Settings} {host : Option Scene.Node} {roots : List Scene.Node}
    {forest : List Node} (built : Design.build s host roots = .ok forest) (names : Bool) :
    Drawn names forest := by
  have formed : ∀ n ∈ Node.preorderList forest, n.WellFormed :=
    fun n member => Design.wellFormed_of_mem_build built member
  have placed : ∀ n ∈ Node.preorderList forest, n.box.layout.mode = .absolute →
      ∀ c ∈ n.children, c.isAbsolute = true :=
    fun n member => Design.isAbsolute_of_build built member
  have widget := Dart.drawings_forestWidget names formed
  have view := Swift.drawings_forestView names formed placed
  refine ⟨fun n member => ⟨?_, ?_⟩, widget, view, ?_, ?_, fun n member => ⟨?_, ?_⟩, ?_⟩
  · exact Dart.drawings_widget names forest formed n member none
  · exact Swift.drawings_view names forest formed placed n member false fun never => nomatch never
  · rw [widget]
    exact perm_listEntries_arrangedAll _ forest
  · rw [view]
    exact perm_listEntries_arrangedAll _ forest
  · exact fun parent => Dart.sublist_parts_widget (formed n member) names parent
  · exact Swift.sublist_parts_view (formed n member) names
  · intro n member f mode between present
    -- Each child draws something, so none of them is taken for a spacer.
    have within : ∀ m ∈ Node.preorderList n.children, m ∈ Node.preorderList forest :=
      fun m => Node.mem_preorderList_of_children member
    refine Swift.spaced_view (formed n member) (fun c child => ?_) mode between present
    have drawn := Swift.drawings_view names n.children (fun m inside => formed m (within m inside))
      (fun m inside => placed m (within m inside)) c child false fun never => nomatch never
    refine @Swift.head_ne_spacer _ false ?_
    rw [drawn]
    exact List.cons_ne_nil _ _

/-- A row with its free space between two texts, and under them a mark that has a place of its
own. -/
theorem drawn_of_build_row :
    let mark : Scene.Node := .mk { nodeType := "RECTANGLE", positioning := .absolute } []
    let text : Scene.Node := .mk { nodeType := "TEXT", characters := some "Hi" } []
    let row : Scene.Node :=
      .mk { nodeType := "FRAME",
            autoLayout := { mode := .horizontal, primaryAlign := .spaceBetween } }
        [mark, text, text]
    let s := Settings.defaults
    let forest := (Design.ofSelection s none [row] .empty).1
    Design.build s none [row] = .ok forest ∧ Drawn s.showLayerNames forest := by
  intro mark text row s forest
  have built : Design.build s none [row] = .ok forest := rfl
  exact ⟨built, drawn_of_build built s.showLayerNames⟩

end Handoff
