import Mathlib.Data.List.Perm.Subperm
import Handoff.Proofs.Design.Arrangement
import Handoff.Target

/-!
No target passes over a node of a well-formed design.

What a target makes of a node is a tree: a markup element, a Dart expression or a Swift view.
`parts` lists such a tree from its root on, so that the parts of one tree can be counted among
those of another.  Each target has branches that drop the children of a node without a look
at them, for texts, images and lines; `Node.WellFormed` leaves no children there.  In all
other branches the children are in the result: `subperm_parts_elementOf`,
`Dart.sublist_parts_widget` and `Swift.sublist_parts_view`, the latter two in the order in which
the children are lined up.

The main statement is `Design.wellFormed_of_build`.
-/

namespace Handoff

open Design (Box Node)

/-! ## Lists -/

section

variable {α β : Type}

theorem sublist_flatMap_of_mem {f : α → List β} {items : List α} {a : α} (member : a ∈ items) :
    (f a).Sublist (items.flatMap f) := by
  rw [List.flatMap_def]
  exact List.sublist_flatten_of_mem (List.mem_map_of_mem member)

theorem flatMap_sublist_flatMap {f g : α → List β} (each : ∀ a, (f a).Sublist (g a)) :
    ∀ items : List α, (items.flatMap f).Sublist (items.flatMap g)
  | [] => .slnil
  | a :: rest => by
      rw [List.flatMap_cons, List.flatMap_cons]
      exact (each a).append (flatMap_sublist_flatMap each rest)

theorem sublist_intersperse (separator : α) : ∀ items : List α,
    items.Sublist (items.intersperse separator)
  | [] => .slnil
  | [a] => .refl [a]
  | a :: b :: rest => by
      rw [List.intersperse_cons_cons]
      exact ((sublist_intersperse separator (b :: rest)).cons separator).cons_cons a

theorem flatMap_sublist_of_sublist {f : α → List β} {left right : List α}
    (sub : left.Sublist right) : (left.flatMap f).Sublist (right.flatMap f) := by
  induction sub with
  | slnil => exact .slnil
  | cons a _ ih =>
      rw [List.flatMap_cons]
      exact ih.trans (List.sublist_append_right _ _)
  | cons_cons a _ ih =>
      rw [List.flatMap_cons, List.flatMap_cons]
      exact (List.Sublist.refl _).append ih

end

/-! ## Markup -/

namespace Markup

mutual

/-- An element, then those in it. -/
def Element.parts : Element → List Element
  | .image comment attributes => [.image comment attributes]
  | .text comment attributes characters => [.text comment attributes characters]
  | .box comment attributes children =>
    .box comment attributes children :: Element.listParts children

/-- The elements of a list, each before those in it. -/
def Element.listParts : List Element → List Element
  | [] => []
  | e :: rest => e.parts ++ Element.listParts rest

end

theorem listParts_elementsOf (attributes : Attributes) (comments : Bool)
    (parent : Option Node) (nodes : List Node) :
    Element.listParts (elementsOf attributes comments parent nodes) =
      nodes.flatMap fun n => (elementOf attributes comments parent n).parts := by
  induction nodes with
  | nil =>
      rw [elementsOf, Element.listParts]
      rfl
  | cons n rest ih => rw [elementsOf, Element.listParts, List.flatMap_cons, ih]

end Markup

/-! ## Dart -/

namespace Dart

mutual

/-- An expression, then those in it. -/
def Expr.parts : Expr → List Expr
  | .raw text => [.raw text]
  | .call name args => .call name args :: Expr.argParts args
  | .list items => .list items :: Expr.listParts items
  | .commented comment inner => .commented comment inner :: inner.parts

/-- The expressions of a list, each before those in it. -/
def Expr.listParts : List Expr → List Expr
  | [] => []
  | e :: rest => e.parts ++ Expr.listParts rest

/-- The expressions that are arguments, each before those in it. -/
def Expr.argParts : List (Option String × Expr) → List Expr
  | [] => []
  | (_, e) :: rest => e.parts ++ Expr.argParts rest

end

namespace Expr

theorem listParts_eq_flatMap : ∀ items : List Expr, listParts items = items.flatMap parts
  | [] => by
      rw [listParts]
      rfl
  | e :: rest => by rw [listParts, listParts_eq_flatMap rest, List.flatMap_cons]

theorem argParts_eq_flatMap : ∀ args : List Arg, argParts args = args.flatMap (·.2.parts)
  | [] => by
      rw [argParts]
      rfl
  | (_, e) :: rest => by rw [argParts, argParts_eq_flatMap rest, List.flatMap_cons]

/-- A call has the parts of each of its arguments. -/
theorem parts_sublist_call {name : String} {args : List Arg} {label : Option String} {e : Expr}
    (member : (label, e) ∈ args) : e.parts.Sublist (call name args).parts := by
  rw [parts, argParts_eq_flatMap]
  exact (sublist_flatMap_of_mem (f := fun a : Arg => a.2.parts) member).cons _

/-- A call has the parts of what is listed in an argument. -/
theorem listed_sublist_call {name : String} {args : List Arg} {label : Option String}
    {items : List Expr} (member : (label, list items) ∈ args) :
    (items.flatMap parts).Sublist (call name args).parts := by
  refine List.Sublist.trans ?_ (parts_sublist_call member)
  rw [parts, listParts_eq_flatMap]
  exact List.sublist_cons_self _ _

end Expr

open Handoff.Dart.Expr (parts parts_sublist_call listed_sublist_call)

/-! The widgets around a widget keep it. -/

theorem mem_arg (name : String) (e : Expr) : (some name, e) ∈ arg name e :=
  List.mem_singleton_self _

theorem parts_sublist_withEffect (e : Expr) (effect : Design.Effect) :
    e.parts.Sublist (withEffect e effect).parts := by
  cases effect with
  | dropShadow shadow => exact .refl _
  | innerShadow shadow => exact .refl _
  | layerBlur radius =>
      exact parts_sublist_call (List.mem_append_right _ (mem_arg "child" e))
  | backgroundBlur radius =>
      exact (parts_sublist_call (List.mem_append_right _ (mem_arg "child" e))).trans
        (parts_sublist_call (mem_arg "child" _))

theorem parts_sublist_effects (effects : List Design.Effect) (e : Expr) :
    e.parts.Sublist (effects.foldl withEffect e).parts := by
  induction effects generalizing e with
  | nil => exact .refl _
  | cons effect rest ih => exact (parts_sublist_withEffect e effect).trans (ih _)

theorem parts_sublist_withOpacity (opacity : Float) (e : Expr) :
    e.parts.Sublist (withOpacity opacity e).parts := by
  unfold withOpacity
  split
  · exact parts_sublist_call (List.mem_append_right _ (mem_arg "child" e))
  · exact .refl _

theorem parts_sublist_withRotation (rotation : Float) (e : Expr) :
    e.parts.Sublist (withRotation rotation e).parts := by
  unfold withRotation
  split
  · exact parts_sublist_call (List.mem_append_right _ (mem_arg "child" e))
  · exact .refl _

theorem parts_sublist_withName (names : Bool) (name : Option String) (e : Expr) :
    e.parts.Sublist (withName names name e).parts := by
  unfold withName
  split
  · rw [Expr.parts]
    exact List.sublist_cons_self _ _
  · exact .refl _

/-- A widget is kept under the effects, opacity, rotation and name of its node. -/
theorem parts_sublist_wrapped (names : Bool) (b : Box) (e : Expr) :
    e.parts.Sublist (wrapped names b e).parts := by
  calc e.parts.Sublist _ := parts_sublist_effects b.style.effects e
    List.Sublist _ _ := parts_sublist_withOpacity b.style.opacity _
    List.Sublist _ _ := parts_sublist_withRotation b.geometry.rotation _
    List.Sublist _ _ := parts_sublist_withName names b.name _

/-- A widget is kept by the way its parent holds it. -/
theorem parts_sublist_placed (parent n : Node) (e : Expr) :
    e.parts.Sublist (placed parent n e).parts := by
  unfold placed
  split
  · exact parts_sublist_call (List.mem_append_right _ (mem_arg "child" e))
  · split
    · exact parts_sublist_call (mem_arg "child" e)
    · exact .refl _
  · exact .refl _

/-! The widget of a container has those of its children. -/

theorem listed_sublist_flowCall (f : Design.Flow) (hugs : Bool) (children : List Expr) :
    (children.flatMap parts).Sublist (flowCall f hugs children).parts := by
  unfold flowCall
  split
  · exact listed_sublist_call (List.mem_append_right _ (mem_arg "children" (.list children)))
  · exact listed_sublist_call (List.mem_append_right _ (mem_arg "children" (.list children)))

theorem listed_sublist_stack (clips : Bool) (children : List Expr) :
    (children.flatMap parts).Sublist (stack clips children).parts :=
  listed_sublist_call (List.mem_append_right _ (mem_arg "children" (.list children)))

/-- The widget that holds the children of a node has theirs in it as they are lined up. -/
theorem sublist_childrenWidget? (b : Box) {children : List Node} (present : children ≠ [])
    (f : Node → Expr) :
    ∃ child, childrenWidget? b (children.map fun c => (c, f c)) = some child ∧
      (((b.lineUp children).map f).flatMap parts).Sublist child.parts := by
  have some : ¬ children.isEmpty = true := List.isEmpty_iff.not.mpr present
  unfold childrenWidget? Box.lineUp
  rw [List.isEmpty_map, if_neg some, Node.placedAs_false, Node.placedAs_true]
  cases b.layout.mode with
  | absolute =>
      rw [List.map_map]
      exact ⟨_, rfl, listed_sublist_stack _ _⟩
  | flow flow =>
      have line := listed_sublist_flowCall flow
        (b.layout.sizing.along flow.direction).isHug ((children.filter (!·.isAbsolute)).map f)
      dsimp only
      rw [List.map_append, List.flatMap_append]
      split
      · rename_i nothing
        rw [nothing, List.flatMap_nil, List.append_nil]
        exact ⟨_, rfl, line⟩
      · exact ⟨_, rfl, (line.append (.refl _)).trans (listed_sublist_stack false (_ :: _))⟩

theorem sublist_containerWidget (parent : Option Node) {n : Node} (present : n.children ≠ [])
    (f : Node → Expr) :
    (((n.box.lineUp n.children).map f).flatMap parts).Sublist
      (containerWidget parent n (n.children.map fun c => (c, f c))).parts := by
  obtain ⟨child, found, kept⟩ := sublist_childrenWidget? n.box present f
  have last : (some "child", child) ∈ argOpt "child" (some child) := List.mem_singleton_self _
  refine kept.trans ?_
  unfold containerWidget
  simp only [found]
  split
  · split
    · refine List.Sublist.trans ?_ (parts_sublist_call (mem_arg "child" _))
      exact parts_sublist_call (List.mem_append_right _ last)
    · exact parts_sublist_call (List.mem_append_right _ last)
  · exact parts_sublist_call (List.mem_append_right _ last)

theorem placedChildren_eq_map (names : Bool) (parent : Node) (children : List Node) :
    placedChildren names parent children =
      children.map fun c => (c, placed parent c (widget names (some parent) c)) := by
  induction children with
  | nil =>
      rw [placedChildren]
      rfl
  | cons c rest ih => rw [placedChildren, ih, List.map_cons]

end Dart

/-! ## Swift -/

namespace Swift

mutual

/-- A view, then those in it. -/
def View.parts : View → List View
  | .mk comment head children modifiers =>
    .mk comment head children modifiers :: View.listParts children

/-- The views of a list, each before those in it. -/
def View.listParts : List View → List View
  | [] => []
  | v :: rest => v.parts ++ View.listParts rest

end

namespace View

theorem listParts_eq_flatMap : ∀ views : List View, listParts views = views.flatMap parts
  | [] => by
      rw [listParts]
      rfl
  | v :: rest => by rw [listParts, listParts_eq_flatMap rest, List.flatMap_cons]

theorem parts_eq_cons (v : View) : v.parts = v :: v.children.flatMap parts := by
  cases v with
  | mk comment head children modifiers =>
      rw [parts, listParts_eq_flatMap]
      rfl

end View

open View (parts parts_eq_cons)

/-- The line of a flow has the views of its children in it. -/
theorem sublist_stackView (f : Design.Flow) (views : List View) :
    (views.flatMap parts).Sublist ((stackView f views).children.flatMap parts) := by
  unfold stackView
  split
  · exact flatMap_sublist_of_sublist (sublist_intersperse spacer views)
  · exact .refl _

/-- The view of a container has those of its children in it as they are lined up. -/
theorem sublist_containerView (b : Box) {children : List Node} (present : children ≠ [])
    (f : Node → View) :
    (((b.lineUp children).map f).flatMap parts).Sublist
      ((containerView b (children.map fun c => (c, f c))).children.flatMap parts) := by
  have some : ¬ children.isEmpty = true := List.isEmpty_iff.not.mpr present
  unfold containerView Box.lineUp
  rw [List.isEmpty_map, if_neg some, Node.placedAs_false, Node.placedAs_true]
  cases b.layout.mode with
  | absolute =>
      rw [List.map_map]
      exact .refl _
  | flow flow =>
      have line := sublist_stackView flow ((children.filter (!·.isAbsolute)).map f)
      dsimp only
      rw [List.map_append, List.flatMap_append]
      split
      · rename_i nothing
        rw [nothing, List.flatMap_nil, List.append_nil]
        exact line
      · rw [layered, View.group, View.children, List.flatMap_cons, parts_eq_cons (stackView _ _)]
        exact (line.cons _).append (.refl _)

theorem childViews_eq_map (names : Bool) (nodes : List Node) :
    childViews names nodes = nodes.map fun n => (n, view names n) := by
  induction nodes with
  | nil =>
      rw [childViews]
      rfl
  | cons n rest ih => rw [childViews, ih, List.map_cons]

end Swift

/-! ## Nodes -/

namespace Design

/-- Every target puts what it makes of the children of a node, with all that is in it, into
what it makes of the node.  In particular a node that becomes a leaf has no children. -/
structure Node.Kept (n : Node) : Prop where
  leaf : Markup.isLeaf n.box = true ∨ Dart.isLeaf n.box = true ∨ Swift.isLeaf n = true →
    n.children = []
  element : ∀ attributes comments parent,
    (n.children.flatMap fun c => (Markup.elementOf attributes comments (some n) c).parts).Subperm
      (Markup.elementOf attributes comments parent n).parts
  widget : ∀ names parent,
    (n.children.flatMap fun c => (Dart.widget names (some n) c).parts).Subperm
      (Dart.widget names parent n).parts
  view : ∀ names,
    (n.children.flatMap fun c => (Swift.view names c).parts).Subperm
      (Swift.view names n).parts

/-- A node that every target takes for one with children. -/
structure Node.Branches (n : Node) : Prop where
  text : n.box.style.text = none
  image : n.box.kind ≠ .image
  line : n.box.kind.isLine = false
  shape : Swift.isShape n = false

namespace Node.Branches

variable {n : Node}

theorem elementOf (branches : n.Branches) (attributes : Markup.Attributes) (comments : Bool)
    (parent : Option Node) :
    Markup.elementOf attributes comments parent n =
      .box (Markup.commentOf comments n.box) (attributes parent n)
        (Markup.elementsOf attributes comments (some n) n.children) := by
  cases n with
  | mk box children =>
      have characters : box.characters? = none := by
        rw [Box.characters?, show box.style.text = none from branches.text]
        rfl
      rw [Markup.elementOf]
      simp only [show box.kind ≠ .image from branches.image, if_false, characters]
      rfl

theorem widgetBase (branches : n.Branches) (parent : Option Node) (made : List (Node × Dart.Expr)) :
    Dart.base parent n made = Dart.containerWidget parent n made := by
  rw [Dart.base, branches.text]
  simp only [branches.image, branches.line, if_false, Bool.false_eq_true]

theorem viewBase (branches : n.Branches) (made : List (Node × Swift.View)) :
    Swift.base n made = Swift.containerView n.box made := by
  rw [Swift.base, branches.text]
  simp only [branches.image, branches.line, branches.shape, if_false, Bool.false_eq_true]

theorem not_leaf (branches : n.Branches) :
    ¬(Markup.isLeaf n.box = true ∨ Dart.isLeaf n.box = true ∨ Swift.isLeaf n = true) := by
  simp [Markup.isLeaf, Dart.isLeaf, Swift.isLeaf, branches.text, branches.image, branches.line,
    branches.shape]

end Node.Branches

/-- A node with children is of none of the kinds that end a branch. -/
theorem Node.WellFormed.branches {n : Node} (formed : n.WellFormed) (present : n.children ≠ []) :
    n.Branches := by
  have kinds := formed.children present
  have notText : n.box.kind ≠ .text := by rcases kinds with kind | kind | kind <;> simp [kind]
  refine ⟨?_, ?_, ?_, ?_⟩
  · rw [← Option.not_isSome_iff_eq_none, formed.box.text_iff]
    exact notText
  · rcases kinds with kind | kind | kind <;> simp [kind]
  · rcases kinds with kind | kind | kind <;> rw [kind] <;> rfl
  · unfold Swift.isShape
    rcases kinds with kind | kind | kind <;> rw [kind] <;> rfl

theorem subperm_parts_elementOf {n : Node} (branches : n.Branches)
    (attributes : Markup.Attributes) (comments : Bool) (parent : Option Node) :
    (n.children.flatMap fun c => (Markup.elementOf attributes comments (some n) c).parts).Subperm
      (Markup.elementOf attributes comments parent n).parts := by
  rw [branches.elementOf, Markup.Element.parts, Markup.listParts_elementsOf]
  exact (List.sublist_cons_self _ _).subperm

end Design

namespace Dart

/-- The widgets of the children of a node stand in its widget as the children are lined up, each as
it is held. -/
theorem sublist_parts_held {n : Node} (formed : n.WellFormed) (names : Bool)
    (parent : Option Node) :
    ((n.box.lineUp n.children).flatMap fun c =>
      (placed n c (widget names (some n) c)).parts).Sublist (widget names parent n).parts := by
  by_cases present : n.children = []
  · rw [present, Box.lineUp_nil]
    exact List.nil_sublist _
  · have held := sublist_containerWidget parent present
      (fun c => placed n c (widget names (some n) c))
    rw [← (formed.branches present).widgetBase, List.flatMap_map] at held
    cases n with
    | mk box children =>
        rw [widget, placedChildren_eq_map]
        exact held.trans (parts_sublist_wrapped names box _)

/-- The same for the widgets themselves. -/
theorem sublist_parts_widget {n : Node} (formed : n.WellFormed) (names : Bool)
    (parent : Option Node) :
    ((n.box.lineUp n.children).flatMap fun c => (widget names (some n) c).parts).Sublist
      (widget names parent n).parts :=
  (flatMap_sublist_flatMap (fun c => parts_sublist_placed n c _) _).trans
    (sublist_parts_held formed names parent)

end Dart

namespace Swift

/-- The views of the children of a node stand in its view as the children are lined up. -/
theorem sublist_parts_view {n : Node} (formed : n.WellFormed) (names : Bool) :
    ((n.box.lineUp n.children).flatMap fun c => (view names c).parts).Sublist
      (view names n).parts := by
  by_cases present : n.children = []
  · rw [present, Box.lineUp_nil]
    exact List.nil_sublist _
  · have held := sublist_containerView n.box present (view names)
    rw [← (formed.branches present).viewBase, List.flatMap_map] at held
    cases n with
    | mk box children =>
        rw [view, childViews_eq_map, View.parts_eq_cons]
        exact held.trans (List.sublist_cons_self _ _)

end Swift

namespace Design

/-- The targets keep the children of every well-formed node. -/
theorem Node.WellFormed.kept {n : Node} (formed : n.WellFormed) : n.Kept := by
  by_cases present : n.children = []
  · refine ⟨fun _ => present, ?_, ?_, ?_⟩ <;> intros <;> rw [present] <;> exact List.nil_subperm
  · have branches := formed.branches present
    have lined := (n.box.lineUp_perm n.children).symm
    refine ⟨fun leaf => (branches.not_leaf leaf).elim, subperm_parts_elementOf branches,
      fun names parent => ?_, fun names => ?_⟩
    · exact (lined.flatMap_right _).subperm.trans
        (Dart.sublist_parts_widget formed names parent).subperm
    · exact (lined.flatMap_right _).subperm.trans (Swift.sublist_parts_view formed names).subperm

/-- A node of a design that a target gives no children in its code has none. -/
theorem leafless_of_build {s : Settings} {host : Option Scene.Node} {roots : List Scene.Node}
    {forest : List Node} (built : Design.build s host roots = .ok forest) {n : Node}
    (member : n ∈ Node.preorderList forest)
    (leaf : Markup.isLeaf n.box = true ∨ Dart.isLeaf n.box = true ∨ Swift.isLeaf n = true) :
    n.children = [] :=
  (wellFormed_of_mem_build built member).kept.leaf leaf

/-- Every node of a design is well formed, and no target passes over a node of a design. -/
theorem wellFormed_of_build {s : Settings} {host : Option Scene.Node} {roots : List Scene.Node}
    {forest : List Node} (built : Design.build s host roots = .ok forest) {n : Node}
    (member : n ∈ Node.preorderList forest) : n.WellFormed ∧ n.Kept := by
  have formed := wellFormed_of_mem_build built member
  exact ⟨formed, formed.kept⟩

/-- A row of a text and of a note whose type has no counterpart. -/
theorem wellFormed_of_build_row :
    let text : Scene.Node := .mk { nodeType := "TEXT", characters := some "Hi" } []
    let note : Scene.Node :=
      .mk { nodeType := "STICKY", autoLayout := { mode := .vertical } } [text]
    let row : Scene.Node :=
      .mk { nodeType := "FRAME",
            autoLayout := { mode := .horizontal, itemSpacing := 4.0,
                            primaryAlign := .spaceBetween, counterAlign := .baseline } }
        [text, note]
    let s := Settings.defaults
    let forest := (ofSelection s none [row] .empty).1
    Design.build s none [row] = .ok forest ∧
      ∃ n ∈ Node.preorderList forest,
        n.box.layout.flow?.isSome = true ∧ n.children.length = 2 ∧ n.WellFormed ∧ n.Kept := by
  intro text note row s forest
  have built : Design.build s none [row] = .ok forest := rfl
  have member : forest.head (List.cons_ne_nil _ _) ∈ Node.preorderList forest :=
    List.mem_cons_self
  exact ⟨built, _, member, rfl, rfl, wellFormed_of_build built member⟩

end Design

end Handoff
