import Handoff.Proofs.Design.Preorder
import Handoff.Proofs.Design.WellFormed

/-!
The order in which widgets and views stand.

A row or a column has no place for what is put at an offset, so the widget targets lay that on
top of the line: in a flow the children at an offset come after all others (`Box.lineUp`).
`Node.arranged` is a design with the children of every flow in this order.  Nothing is lost or
doubled (`Node.boxes_arrangedAll`), and a design in which each flow already has its children in
this order stays as it is (`Node.arrangedAll_eq_self`).

Without a flow all children of a node of a design are at an offset (`isAbsolute_of_build`).
-/

namespace Handoff.Design

open Scene (Layer)

/-- Whether a node is placed at an offset. -/
def Node.isAbsolute (n : Node) : Bool :=
  n.box.layout.placement.isAbsolute

/-- The children of a node as widgets and views hold them. -/
def Box.lineUp (b : Box) (children : List Node) : List Node :=
  match b.layout.mode with
  | .flow _ => children.filter (!·.isAbsolute) ++ children.filter (·.isAbsolute)
  | .absolute => children

theorem Box.lineUp_nil (b : Box) : b.lineUp [] = [] := by
  unfold Box.lineUp
  cases b.layout.mode <;> rfl

mutual

/-- A node with all below it lined up. -/
def Node.arranged : Node → Node
  | .mk box children => .mk box (box.lineUp (Node.arrangedAll children))

/-- The nodes of a list with all below them lined up. -/
def Node.arrangedAll : List Node → List Node
  | [] => []
  | n :: rest => n.arranged :: Node.arrangedAll rest

end

theorem Node.arrangedAll_eq_map (nodes : List Node) :
    Node.arrangedAll nodes = nodes.map Node.arranged := by
  induction nodes with
  | nil => rfl
  | cons n rest ih => rw [Node.arrangedAll, ih, List.map_cons]

theorem Node.box_arranged (n : Node) : n.arranged.box = n.box := by
  cases n with
  | mk box children =>
      rw [Node.arranged]
      rfl

theorem Node.isAbsolute_arranged (n : Node) : n.arranged.isAbsolute = n.isAbsolute := by
  rw [Node.isAbsolute, Node.box_arranged]
  rfl

theorem Node.children_arranged (n : Node) :
    n.arranged.children = (n.box.lineUp n.children).map Node.arranged := by
  cases n with
  | mk box children =>
      rw [Node.arranged, Node.arrangedAll_eq_map]
      -- Arranging a child leaves it where it is placed, so the parts can be taken first.
      unfold Box.lineUp Node.children Node.box
      cases box.layout.mode with
      | absolute => rfl
      | flow f =>
          simp only [List.filter_map, List.map_append, Function.comp_def,
            Node.isAbsolute_arranged]

section

variable {α : Type} (make : Node → α) (children : List Node)

theorem Node.placedAs_map (absolute : Bool) :
    Node.placedAs absolute (children.map fun c => (c, make c)) =
      (children.filter (·.isAbsolute == absolute)).map make := by
  rw [Node.placedAs, List.filter_map, List.map_map]
  rfl

theorem Node.placedAs_false :
    Node.placedAs false (children.map fun c => (c, make c)) =
      (children.filter (!·.isAbsolute)).map make := by
  rw [Node.placedAs_map]
  simp only [beq_false]

theorem Node.placedAs_true :
    Node.placedAs true (children.map fun c => (c, make c)) =
      (children.filter (·.isAbsolute)).map make := by
  rw [Node.placedAs_map]
  simp only [beq_true]

end

/-! ## Nothing is lost -/

theorem Box.lineUp_perm (b : Box) (children : List Node) :
    (b.lineUp children).Perm children := by
  unfold Box.lineUp
  cases b.layout.mode with
  | absolute => exact .refl _
  | flow f =>
      have later := List.filter_append_perm (fun n : Node => !n.isAbsolute) children
      simp only [Bool.not_not] at later
      exact later

theorem Node.preorderList_eq_flatMap (nodes : List Node) :
    Node.preorderList nodes = nodes.flatMap Node.preorder := by
  induction nodes with
  | nil => rfl
  | cons n rest ih => rw [Node.preorderList, ih, List.flatMap_cons]

/-- The nodes of what is arranged are the nodes of the forest, arranged, in another order. -/
theorem Node.preorderList_arrangedAll_perm (forest : List Node) :
    (Node.preorderList (Node.arrangedAll forest)).Perm
      ((Node.preorderList forest).map Node.arranged) := by
  induction forest using Node.forestInduction with
  | nil => exact .refl _
  | cons box children rest below after =>
      -- Lining up permutes whole trees, so their nodes are permuted with them.
      have inside : (Node.preorderList (box.lineUp (Node.arrangedAll children))).Perm
          (Node.preorderList (Node.arrangedAll children)) := by
        rw [Node.preorderList_eq_flatMap, Node.preorderList_eq_flatMap]
        exact (box.lineUp_perm _).flatMap_right _
      rw [Node.arrangedAll, Node.arranged, Node.preorderList_mk_cons, Node.preorderList_mk_cons,
        List.map_cons, List.map_append, Node.arranged]
      exact ((inside.trans below).append after).cons _

/-- Arranging changes the order of boxes and nothing else. -/
theorem Node.boxes_arrangedAll (forest : List Node) :
    ((Node.preorderList (Node.arrangedAll forest)).map Node.box).Perm
      ((Node.preorderList forest).map Node.box) := by
  have nodes := (Node.preorderList_arrangedAll_perm forest).map Node.box
  rwa [List.map_map, show Node.box ∘ Node.arranged = Node.box from funext Node.box_arranged] at nodes

/-! ## Nothing is moved without need -/

/-- In a flow, whatever follows a child at an offset is at an offset too. -/
def Node.IsLinedUp (n : Node) : Prop :=
  n.box.layout.flow?.isSome = true →
    n.children.Pairwise fun first later => first.isAbsolute = true → later.isAbsolute = true

/-- A list in which nothing of one sort comes after something of the other is its parts one
after another. -/
theorem filter_append_of_pairwise {α : Type} {late : α → Bool} {items : List α}
    (sorted : items.Pairwise fun first later => late first = true → late later = true) :
    items.filter (!late ·) ++ items.filter late = items := by
  induction items with
  | nil => rfl
  | cons a rest ih =>
      obtain ⟨follows, others⟩ := List.pairwise_cons.mp sorted
      by_cases isLate : late a = true
      · -- All that follow are late as well, so the early part is empty from here on.
        have all : ∀ b ∈ rest, late b = true := fun b member => follows b member isLate
        have none : rest.filter (!late ·) = [] :=
          List.filter_eq_nil_iff.mpr fun b member => by simp [all b member]
        rw [List.filter_cons_of_neg (by simp [isLate]), List.filter_cons_of_pos isLate, none,
          List.filter_eq_self.mpr all, List.nil_append]
      · rw [List.filter_cons_of_pos (by simp [isLate]), List.filter_cons_of_neg isLate,
          List.cons_append, ih others]

theorem Node.lineUp_of_isLinedUp {n : Node} (linedUp : n.IsLinedUp) :
    n.box.lineUp n.children = n.children := by
  have sorted := linedUp
  unfold Node.IsLinedUp Layout.flow? at sorted
  unfold Box.lineUp
  cases mode : n.box.layout.mode with
  | absolute => rfl
  | flow f =>
      rw [mode] at sorted
      exact filter_append_of_pairwise (sorted rfl)

theorem Node.arrangedAll_eq_self (forest : List Node) :
    (∀ n ∈ Node.preorderList forest, n.IsLinedUp) → Node.arrangedAll forest = forest := by
  induction forest using Node.forestInduction with
  | nil => exact fun _ => rfl
  | cons box children rest below after =>
      intro linedUp
      obtain ⟨own, inner, others⟩ := Node.forall_preorderList_mk_cons.mp linedUp
      rw [Node.arrangedAll, Node.arranged, below inner, after others]
      exact congrArg (fun kept => .mk box kept :: rest) (Node.lineUp_of_isLinedUp own)

/-! ## Children without a flow -/

/-- What a design says of a node inside another it says of all nodes of a list. -/
theorem Node.FollowsAll.exists_agreement {R : Agreement} {above : Option Box} :
    ∀ {sources : List Scene.Node} {nodes : List Node}, Node.FollowsAll R above sources nodes →
      ∀ n ∈ nodes, ∃ layer, R above layer n.box
  | [], [], _, n, member => by cases member
  | .mk layer sources :: _, .mk box children :: rest, follows, n, member => by
      rcases List.mem_cons.mp member with rfl | later
      · exact ⟨layer, follows.1.1⟩
      · exact Node.FollowsAll.exists_agreement follows.2 n later

/-- In a design a node that has no flow places its children at offsets. -/
theorem isAbsolute_of_build {s : Settings} {host : Option Scene.Node} {roots : List Scene.Node}
    {forest : List Node} (built : Design.build s host roots = .ok forest) {n : Node}
    (member : n ∈ Node.preorderList forest) (mode : n.box.layout.mode = .absolute) :
    ∀ c ∈ n.children, c.isAbsolute = true := by
  obtain ⟨rfl, -⟩ := build_eq_ok built
  -- Where a box is placed depends on the box above it, not on what it was made of.
  have follows : Node.FollowsAll (fun above _ box => ∀ parent, above = some parent →
      parent.layout.mode = .absolute → box.layout.placement.isAbsolute = true) none
      (Scene.shownForest roots) (ofSelection s host roots .empty).1 := by
    refine followsAll_ofSelection s host roots .empty (fun _ _ _ _ missing => nomatch missing) ?_
    rintro o - above name parent ⟨rfl⟩ absolute
    rw [absolute]
    rfl
  obtain ⟨source, -, above, agrees⟩ := follows.exists_source n member
  intro c child
  cases source with
  | mk layer sources =>
      cases n with
      | mk box children =>
          obtain ⟨-, placed⟩ := agrees.2.exists_agreement c child
          exact placed box rfl mode

end Handoff.Design
