import Handoff.Proofs.Dart.Chain

/-!
Widgets that fill an axis.

What fills the axis of the line that it stands in takes its share of it by being in an `Expanded`,
and its widget must not be given a size there; along any other axis it is given an infinite
size.  The two are written by different code, `placed` for the share and `size?` for the size,
each with its own look at the parent.  They agree wherever a node stands (`SharedAlong`), and
there is no share that no node takes (`countP_calls_trees`).

Images and lines are not sized in this way.  The main statement is `fillAgreement_of_build`.
-/

namespace Handoff.Dart

open Design (Box Node Direction)
open Handoff.Dart.Expr (raw call given classes contentLabels)

/-! ## Shares -/

/-- A node flows along the axis of the line that its parent is. -/
def SharedAlong (parent : Option Node) (n : Node) (axis : Direction) : Prop :=
  n.box.layout.placement = .flow ∧ ∃ p f, parent = some p ∧ p.box.layout.flow? = some f ∧
    f.wraps = false ∧ f.direction = axis

/-- A node fills the line that it flows in. -/
def TakesShare (parent : Option Node) (n : Node) : Prop :=
  ∃ axis, n.box.layout.sizing.along axis = .fill ∧ SharedAlong parent n axis

/-- The name of the argument for the size along an axis. -/
def sizeLabel : Direction → String
  | .horizontal => "width"
  | .vertical => "height"

theorem isFill_iff {e : Design.Extent} : e.isFill = true ↔ e = .fill := by
  cases e <;> simp [Design.Extent.isFill]

/-- The size of a node goes by the same conditions as its share. -/
theorem expands_iff (parent : Option Node) (n : Node) (axis : Direction) :
    expands parent n axis = true ↔ SharedAlong parent n axis := by
  unfold expands SharedAlong
  cases n.box.layout.placement with
  | root | absolute => simp
  | flow =>
      cases parent with
      | none => simp
      | some p => cases flow : p.box.layout.flow? <;> simp [flow]

instance (parent : Option Node) (n : Node) : Decidable (TakesShare parent n) :=
  decidable_of_iff (∃ axis ∈ [Direction.horizontal, .vertical],
      (n.box.layout.sizing.along axis).isFill = true ∧ expands parent n axis = true) <| by
    unfold TakesShare
    simp only [isFill_iff, expands_iff]
    constructor
    · rintro ⟨axis, -, fills⟩
      exact ⟨axis, fills⟩
    · rintro ⟨axis, fills⟩
      exact ⟨axis, by cases axis <;> simp, fills⟩

/-- What the code asks before it puts the widget of a node in an `Expanded`. -/
theorem takesShare_some_iff {p n : Node} : TakesShare (some p) n ↔
    n.box.layout.placement = .flow ∧ ∃ f, p.box.layout.flow? = some f ∧
      (!f.wraps && (n.box.layout.sizing.along f.direction).isFill) = true := by
  unfold TakesShare SharedAlong
  simp only [Bool.and_eq_true, Bool.not_eq_true', isFill_iff]
  constructor
  · rintro ⟨_, fills, flows, _, f, ⟨⟩, flow, straight, rfl⟩
    exact ⟨flows, f, flow, straight, fills⟩
  · rintro ⟨flows, f, flow, straight, fills⟩
    exact ⟨f.direction, fills, flows, p, f, rfl, flow, straight, rfl⟩

theorem not_takesShare_none (n : Node) : ¬TakesShare none n := by
  rintro ⟨_, _, _, _, _, missing, _⟩
  cases missing

/-! ## What a node is held in -/

section

variable {parent : Option Node} {n : Node}

theorem heldWidget_of_takesShare (takes : TakesShare parent n) (names : Bool) :
    heldWidget names parent n = call "Expanded" (arg "child" (widget names parent n)) := by
  cases parent with
  | none => exact absurd takes (not_takesShare_none n)
  | some p =>
      obtain ⟨flows, f, flow, fills⟩ := takesShare_some_iff.mp takes
      rw [heldWidget, placed, flows, flow]
      exact if_pos fills

theorem heldWidget_of_not_takesShare (takes : ¬TakesShare parent n) (names : Bool) :
    heldWidget names parent n = widget names parent n ∨ ∃ left top,
      heldWidget names parent n = call "Positioned"
        (arg "left" (number left) ++ arg "top" (number top) ++
          arg "child" (widget names parent n)) := by
  cases parent with
  | none => exact .inl rfl
  | some p =>
      unfold heldWidget placed
      dsimp only
      split
      · exact .inr ⟨_, _, rfl⟩
      · rename_i f flows flow
        rw [if_neg fun fills => takes (takesShare_some_iff.mpr ⟨flows, f, flow, fills⟩)]
        exact .inl rfl
      · exact .inl rfl

end

/-! ## What a node is given -/

section

variable {parent : Option Node} {n : Node}

/-- A size that is to be filled is left to the line around it or else infinite. -/
theorem size?_of_fill {axis : Direction} (fill : n.box.layout.sizing.along axis = .fill) :
    (SharedAlong parent n axis → size? parent n axis = none) ∧
      (¬SharedAlong parent n axis → size? parent n axis = some (raw "double.infinity")) := by
  rw [← expands_iff]
  unfold size?
  rw [fill]
  exact ⟨fun shared => if_pos shared, fun alone => if_neg alone⟩

theorem given_textWidget (t : Design.TextStyle) (axis : Direction) :
    (textWidget parent n t).given (sizeLabel axis) = (size? parent n axis).toList := by
  unfold textWidget sized
  dsimp only
  split
  · rename_i unsized
    obtain ⟨width, height⟩ := unsized
    cases axis with
    | horizontal => simp [Option.isNone_iff_eq_none.mp width, sizeLabel, Expr.given_call]
    | vertical => simp [Option.isNone_iff_eq_none.mp height, sizeLabel, Expr.given_call]
  · cases axis <;> simp [sizeLabel, Expr.given_call]

theorem given_containerWidget (made : List (Node × Expr)) (axis : Direction) :
    (containerWidget parent n made).given (sizeLabel axis) = (size? parent n axis).toList := by
  have inside : (childrenWidget? n.box made).toList.flatMap (given (sizeLabel axis)) = [] := by
    cases listing : childrenWidget? n.box made with
    | none => rfl
    | some e =>
        obtain ⟨name, args, rfl, lists⟩ := lists_childrenWidget? listing
        have size : sizeLabel axis ∈ ["width", "height"] := by cases axis <;> simp [sizeLabel]
        rw [Option.toList_some, List.flatMap_singleton, lists.given_eq_nil size]
  unfold containerWidget
  dsimp only
  split
  · split <;> cases axis <;> simp_all [sizeLabel, Expr.given_call]
  · cases axis <;> simp_all [sizeLabel, Expr.given_call]

/-- The widget of a node is given the sizes of the node, unless it is an image or a line. -/
theorem given_widget (names : Bool) (image : n.box.kind ≠ .image) (line : n.box.kind.isLine = false)
    (axis : Direction) :
    (widget names parent n).given (sizeLabel axis) = (size? parent n axis).toList := by
  rcases n with ⟨box, children⟩
  have size : sizeLabel axis ∈ contentLabels := by cases axis <;> simp [sizeLabel, contentLabels]
  rw [widget, (around_wrapped names box _).given_eq size, base]
  split
  · exact given_textWidget _ axis
  · rw [if_neg image, line]
    exact given_containerWidget _ axis

end

/-! ## Shares for no other reason -/

theorem expanded_notMem_containerWidget (parent : Option Node) (n : Node)
    (made : List (Node × Expr)) : "Expanded" ∉ (containerWidget parent n made).classes := by
  have inside : "Expanded" ∉ (childrenWidget? n.box made).toList.flatMap classes := by
    cases listing : childrenWidget? n.box made with
    | none => exact List.not_mem_nil
    | some e =>
        obtain ⟨name, args, rfl, lists⟩ := lists_childrenWidget? listing
        rw [Option.toList_some, List.flatMap_singleton, lists.classes_eq, List.mem_singleton]
        rintro rfl
        exact absurd lists.isClass (by simp [listingClasses])
  unfold containerWidget
  dsimp only
  split
  · split <;> simp_all [Expr.classes_call]
  · simp_all [Expr.classes_call]

/-- No widget of a node is an `Expanded` before it is held. -/
theorem expanded_notMem_widget (names : Bool) (parent : Option Node) (n : Node) :
    "Expanded" ∉ (widget names parent n).classes := by
  rcases n with ⟨box, children⟩
  rw [widget, (around_wrapped names box _).classes_eq, List.mem_append]
  rintro (drawn | own)
  · exact absurd (wrappers_subset box drawn) (by simp)
  · revert own
    unfold base
    split
    · unfold textWidget sized
      dsimp only
      split <;> simp [Expr.classes_call]
    · split
      · unfold imageWidget
        dsimp only
        split <;> simp [Expr.classes_call]
      · split
        · simp [lineWidget, Expr.classes_call]
        · exact expanded_notMem_containerWidget parent _ _

/-- A widget is held in an `Expanded` if it takes a share. -/
theorem expanded_mem_heldWidget_iff (names : Bool) (parent : Option Node) (n : Node) :
    "Expanded" ∈ (heldWidget names parent n).classes ↔ TakesShare parent n := by
  by_cases takes : TakesShare parent n
  · rw [heldWidget_of_takesShare takes, Expr.classes_call]
    exact iff_of_true List.mem_cons_self takes
  · refine iff_of_false ?_ takes
    have none := expanded_notMem_widget names parent n
    rcases heldWidget_of_not_takesShare takes names with same | ⟨left, top, same⟩
    · rwa [same]
    · rw [same, Expr.classes_call]
      simpa using none

/-- Whether a call is an `Expanded`. -/
def isShare (c : Place × String) : Bool := c.2 == "Expanded"

theorem countP_held (p n : Node) :
    (held p.box n.box).countP isShare = if TakesShare (some p) n then 1 else 0 := by
  unfold held
  split
  · rename_i placement
    have apart : ¬TakesShare (some p) n := by
      rw [takesShare_some_iff, placement]
      rintro ⟨flows, -⟩
      cases flows
    rw [if_neg apart]
    rfl
  · rename_i f flows flow
    have takes : TakesShare (some p) n ↔
        (!f.wraps && (n.box.layout.sizing.along f.direction).isFill) = true := by
      rw [takesShare_some_iff]
      simp [flows, flow]
    by_cases fills : (!f.wraps && (n.box.layout.sizing.along f.direction).isFill) = true
    · rw [if_pos fills, if_pos (takes.mpr fills)]
      rfl
    · rw [if_neg fills, if_neg (takes.not.mpr fills)]
      rfl
  · rename_i other
    have apart : ¬TakesShare (some p) n := by
      rw [takesShare_some_iff]
      rintro ⟨flows, f, flow, -⟩
      exact other f flows flow
    rw [if_neg apart]
    rfl

/-- How a node speaks to the one around it, if there is one. -/
def heldUnder (parent : Option Node) (n : Node) : List (Place × String) :=
  parent.elim [] fun p => held p.box n.box

theorem countP_heldUnder (parent : Option Node) (n : Node) :
    (heldUnder parent n).countP isShare = if TakesShare parent n then 1 else 0 := by
  cases parent with
  | none =>
      rw [if_neg (not_takesShare_none n)]
      rfl
  | some p => exact countP_held p n

/-- The calls by which the nodes of a forest take shares are as many as the nodes that do. -/
theorem countP_parentDataOf (forest : List Node) : ∀ parent : Option Node,
    (∀ n ∈ Node.preorderList forest, isLeaf n.box = true → n.children = []) →
    (forest.flatMap fun n => heldUnder parent n ++ parentDataOf n.arranged).countP isShare =
      (Node.preorderListUnder parent forest).countP fun v => TakesShare v.1 v.2 := by
  induction forest using Node.forestInduction with
  | nil => exact fun _ _ => rfl
  | cons box children rest below after =>
      intro parent leafless
      obtain ⟨own, inner, others⟩ := Node.forall_preorderList_mk_cons.mp leafless
      have inside : (parentDataOf (Node.mk box children).arranged).countP isShare =
          (Node.preorderListUnder (some (.mk box children)) children).countP
            fun v => TakesShare v.1 v.2 := by
        rw [parentDataOf_arranged]
        split
        · rename_i leaf
          rw [show children = [] from own leaf]
          rfl
        · -- Lining up the children does not change how often they speak.
          rw [((box.lineUp_perm children).flatMap_right _).countP_eq]
          exact below (some (.mk box children)) inner
      rw [List.flatMap_cons, List.countP_append, List.countP_append, after parent others, inside,
        countP_heldUnder, Node.preorderListUnder_mk_cons, List.countP_cons, List.countP_append]
      simp only [decide_eq_true_eq]
      omega

/-- The code of a forest has as many shares as there are nodes in it that take one. -/
theorem countP_calls_trees (s : Settings) {forest : List Node}
    (leafless : ∀ n ∈ Node.preorderList forest, isLeaf n.box = true → n.children = []) :
    ((trees s forest).flatMap (Expr.calls .whole)).countP isShare =
      (Node.preorderListUnder none forest).countP fun v => TakesShare v.1 v.2 := by
  have speaks : ∀ c : Place × String, isShare c = true →
      (isShare c && parentDataClasses.contains c.2) = true := by
    intro c share
    simp [parentDataClasses, eq_of_beq share, share]
  have filtered : ((trees s forest).flatMap (Expr.calls .whole)).countP isShare =
      ((trees s forest).flatMap (Expr.parentData .whole)).countP isShare := by
    unfold Expr.parentData
    rw [← List.filter_flatMap, List.countP_filter]
    refine List.countP_congr fun c _ => ⟨speaks c, fun both => (Bool.and_eq_true_iff.mp both).1⟩
  rw [filtered, (understood_trees s forest).said, Node.arrangedAll_eq_map, List.flatMap_map]
  exact countP_parentDataOf forest none leafless

/-! ## Designs -/

/-- How the code of a forest sizes what fills an axis. -/
structure FillAgreement (s : Settings) (forest : List Node) : Prop where
  /-- The widget of every node is in the code. -/
  emitted : ∀ v ∈ Node.preorderListUnder none forest,
    heldWidget s.showLayerNames v.1 v.2 ∈ (trees s forest).flatMap Expr.parts
  /-- What fills the line that it stands in takes a share of it and is given no size there. -/
  shared : ∀ v ∈ Node.preorderListUnder none forest, v.2.box.kind ≠ .image →
    v.2.box.kind.isLine = false → ∀ axis, v.2.box.layout.sizing.along axis = .fill →
      SharedAlong v.1 v.2 axis →
        heldWidget s.showLayerNames v.1 v.2 =
            call "Expanded" (arg "child" (widget s.showLayerNames v.1 v.2)) ∧
          (widget s.showLayerNames v.1 v.2).given (sizeLabel axis) = []
  /-- What fills another axis is given an infinite size there. -/
  unshared : ∀ v ∈ Node.preorderListUnder none forest, v.2.box.kind ≠ .image →
    v.2.box.kind.isLine = false → ∀ axis, v.2.box.layout.sizing.along axis = .fill →
      ¬SharedAlong v.1 v.2 axis →
        (widget s.showLayerNames v.1 v.2).given (sizeLabel axis) = [raw "double.infinity"]
  /-- No other axis is a reason for a share, nor is anything else. -/
  expanded_iff : ∀ v ∈ Node.preorderListUnder none forest,
    "Expanded" ∈ (heldWidget s.showLayerNames v.1 v.2).classes ↔ TakesShare v.1 v.2
  /-- All shares in the code are of these nodes. -/
  total : ((trees s forest).flatMap (Expr.calls .whole)).countP isShare =
    (Node.preorderListUnder none forest).countP fun v => TakesShare v.1 v.2

/-- In the code of a design, what fills an axis either takes a share of the line around it or is
given an infinite size, and the first just if it stands in a line along that axis. -/
theorem fillAgreement_of_build {s : Settings} {host : Option Scene.Node} {roots : List Scene.Node}
    {forest : List Node} (built : Design.build s host roots = .ok forest) (t : Settings) :
    FillAgreement t forest := by
  constructor
  case emitted =>
    exact heldWidget_mem_trees t fun n member => Design.wellFormed_of_mem_build built member
  case shared =>
    intro v _ image line axis fill shared
    refine ⟨heldWidget_of_takesShare ⟨axis, fill, shared⟩ _, ?_⟩
    rw [given_widget _ image line, (size?_of_fill fill).1 shared]
    rfl
  case unshared =>
    intro v _ image line axis fill alone
    rw [given_widget _ image line, (size?_of_fill fill).2 alone]
    rfl
  case expanded_iff => exact fun v _ => expanded_mem_heldWidget_iff _ v.1 v.2
  case total =>
    exact countP_calls_trees t fun n member leaf =>
      Design.leafless_of_build built member (.inr (.inl leaf))

/-- A text that fills both axes of the row that it stands in. -/
theorem fillAgreement_of_build_row :
    let text : Scene.Node := .mk
      { nodeType := "TEXT", characters := some "Hi", layoutGrow := 1.0, layoutAlign := .stretch } []
    let row : Scene.Node :=
      .mk { nodeType := "FRAME", autoLayout := { mode := .horizontal } } [text]
    let s := { Settings.defaults with framework := .flutter }
    let forest := (Design.ofSelection s none [row] .empty).1
    Design.build s none [row] = .ok forest ∧
      (∃ v ∈ Node.preorderListUnder none forest, TakesShare v.1 v.2 ∧
        v.2.box.layout.sizing.vertical = .fill ∧ ¬SharedAlong v.1 v.2 .vertical) ∧
      FillAgreement s forest := by
  intro text row s forest
  have built : Design.build s none [row] = .ok forest := rfl
  refine ⟨built, ⟨_, List.mem_cons_of_mem _ List.mem_cons_self, ⟨.horizontal, rfl, ?_⟩, rfl, ?_⟩,
    fillAgreement_of_build built s⟩
  · exact ⟨rfl, _, _, rfl, rfl, rfl, rfl⟩
  · rintro ⟨-, _, _, ⟨⟩, ⟨⟩, -, ⟨⟩⟩

end Handoff.Dart
