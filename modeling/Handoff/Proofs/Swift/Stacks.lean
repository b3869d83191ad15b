import Handoff.Proofs.Swift.Drawing
import Handoff.Proofs.Template.Scaffold

/-!
Stacks without anything in them.

A view is printed with a closure exactly if it has views inside (`View.opened_isPrefix_iff`), and
a stack without one is not Swift.  A container without children is no stack, but one that lets
its children flow and has placed all of them at offsets is a stack of layers, the lowest of which
is an empty line (`Node.isHollow`).  There is no other way to an empty stack:
`Swift.emptyStacks_view` lists those in the view of a node, and `Swift.emptyStacks_of_build` those
in the code of a design.
-/

namespace Handoff

open Design (Box Node Flow)

/-! ## Hollow nodes -/

namespace Design

/-- Whether a node lets its children flow and has children, but none that is in the flow. -/
def Node.isHollow (n : Node) : Bool :=
  n.box.layout.flow?.isSome && !n.children.isEmpty && n.children.all (·.isAbsolute)

theorem Node.isHollow_arranged (n : Node) : n.arranged.isHollow = n.isHollow := by
  have perm : n.arranged.children.Perm (n.children.map Node.arranged) := by
    rw [Node.children_arranged]
    exact (n.box.lineUp_perm n.children).map _
  have same : n.arranged.children.all (·.isAbsolute) = n.children.all (·.isAbsolute) := by
    rw [perm.all_eq, List.all_map]
    exact congrArg _ (funext Node.isAbsolute_arranged)
  have empty : n.arranged.children.isEmpty = n.children.isEmpty := by
    rw [perm.isEmpty_eq, List.isEmpty_map]
  rw [Node.isHollow, Node.isHollow, Node.box_arranged, same, empty]

end Design

namespace Swift

/-! ## Stacks -/

/-- Whether a view is a row, a column or a stack of layers. -/
def View.isStack (v : View) : Bool :=
  ["HStack(", "VStack(", "ZStack("].any fun name => name.toList.isPrefixOf v.head.toList

/-- Whether a view is a stack with nothing in it. -/
def View.isEmptyStack (v : View) : Bool :=
  v.isStack && v.children.isEmpty

/-- The empty stacks of a view. -/
def View.emptyStacks (v : View) : List View :=
  v.parts.filter View.isEmptyStack

theorem View.emptyStacks_eq (v : View) :
    v.emptyStacks =
      (if v.isEmptyStack then [v] else []) ++ v.children.flatMap View.emptyStacks := by
  rw [View.emptyStacks, View.parts_eq_cons, List.filter_cons, List.filter_flatMap]
  split <;> rfl

theorem View.emptyStacks_of_nonempty {v : View} (other : v.isEmptyStack = false) :
    v.emptyStacks = v.children.flatMap View.emptyStacks := by
  rw [View.emptyStacks_eq, other]
  rfl

/-! ## Printing -/

/-- How the text of a view begins if it has a closure. -/
def View.opened (indent : Nat) (v : View) : String :=
  commentText indent v.comment ++ Text.spaces indent ++ v.head ++ " \x7b"

/-- A view is printed with a closure exactly if there are views in it. -/
theorem View.opened_isPrefix_iff (indent : Nat) (v : View) :
    (v.opened indent).toList <+: (v.render indent).toList ↔ v.children ≠ [] := by
  cases v with
  | mk comment head children modifiers =>
      unfold View.opened
      cases children with
      | nil =>
          rw [View.render]
          simp only [View.comment, View.head, View.children, String.toList_append,
            List.append_assoc, List.prefix_append_right_inj]
          refine iff_of_false ?_ (fun other => other rfl)
          -- What follows the head is the line break in front of a modifier, if anything.
          cases modifiers <;> simp [View.modifierText]
      | cons child rest =>
          rw [View.render]
          simp only [View.comment, View.head, View.children, String.toList_append,
            List.append_assoc, List.prefix_append_right_inj]
          refine iff_of_true ?_ (List.cons_ne_nil _ _)
          simp

mutual

/-- What is in a view is printed within its text, further in. -/
theorem View.infix_render_of_mem_parts {v : View} : ∀ (w : View) (indent : Nat), v ∈ w.parts →
    ∃ deeper, (v.render deeper).toList <:+: (w.render indent).toList
  | .mk comment head [] modifiers, indent, member => by
      cases List.mem_singleton.mp member
      exact ⟨indent, List.infix_rfl⟩
  | .mk comment head (child :: rest) modifiers, indent, member => by
      rw [View.parts, List.mem_cons] at member
      rcases member with rfl | inside
      · exact ⟨indent, List.infix_rfl⟩
      · obtain ⟨deeper, within⟩ :=
          View.infix_renderList_of_mem (child :: rest) (indent + View.step) inside
        refine ⟨deeper, within.trans ?_⟩
        rw [View.render]
        refine ⟨(commentText indent comment ++ Text.spaces indent ++ head ++ " \x7b\n").toList,
          (Text.spaces indent ++ "\x7d" ++
            String.join (modifiers.map (modifierText (indent + step)))).toList, ?_⟩
        simp only [String.toList_append, List.append_assoc]

theorem View.infix_renderList_of_mem {v : View} : ∀ (views : List View) (indent : Nat),
    v ∈ View.listParts views →
      ∃ deeper, (v.render deeper).toList <:+: (View.renderList indent views).toList
  | [], _, member => nomatch member
  | w :: rest, indent, member => by
      rw [View.listParts, List.mem_append] at member
      rw [View.renderList, String.toList_append]
      rcases member with first | later
      · obtain ⟨deeper, within⟩ := View.infix_render_of_mem_parts w indent first
        rw [String.toList_append, List.append_assoc]
        exact ⟨deeper, within.trans (List.prefix_append _ _).isInfix⟩
      · obtain ⟨deeper, within⟩ := View.infix_renderList_of_mem rest indent later
        exact ⟨deeper, within.trans (List.suffix_append _ _).isInfix⟩

end

/-! ## Heads -/

theorem isStack_of_begins {c : Char} {v : View} (begins : Begins c v.head)
    (other : c ∉ ['H', 'V', 'Z']) : v.isStack = false := by
  simp only [List.mem_cons, List.not_mem_nil, or_false, not_or] at other
  obtain ⟨row, column, layers⟩ := other
  unfold Begins at begins
  cases chars : v.head.toList with
  | nil => rw [chars] at begins; cases begins
  | cons d rest =>
      rw [chars] at begins
      cases begins
      simp [View.isStack, chars, List.isPrefixOf, Ne.symm row, Ne.symm column, Ne.symm layers]

theorem isStack_of_prefix {name : String} {v : View}
    (stack : name ∈ ["HStack(", "VStack(", "ZStack("]) (begins : name.toList <+: v.head.toList) :
    v.isStack = true :=
  List.any_eq_true.mpr ⟨name, stack, List.isPrefixOf_iff_prefix.mpr begins⟩

theorem isStack_stackHead (f : Flow) (spacing : String) (views : List View) :
    (View.group (stackHead f spacing) views).isStack = true := by
  have named : (stackName f.direction ++ "(").toList <+: (stackHead f spacing).toList := by
    unfold stackHead
    simp only [String.toList_append, List.append_assoc]
    rw [List.prefix_append_right_inj]
    exact ⟨"alignment: ".toList ++ _, rfl⟩
  refine isStack_of_prefix ?_ named
  cases f.direction <;> decide

theorem flatMap_emptyStacks_intersperse (views : List View) :
    (views.intersperse spacer).flatMap View.emptyStacks = views.flatMap View.emptyStacks := by
  induction views with
  | nil => rfl
  | cons v rest ih =>
      cases rest with
      | nil => rfl
      | cons w others =>
          have blank : spacer.emptyStacks = [] := by decide
          rw [List.intersperse_cons_cons, List.flatMap_cons, List.flatMap_cons, ih, blank]
          rfl

theorem isEmptyStack_stackView (f : Flow) (views : List View) :
    (stackView f views).isEmptyStack = views.isEmpty := by
  unfold stackView View.isEmptyStack
  split
  · rw [isStack_stackHead, Bool.true_and]
    cases views with
    | nil => rfl
    | cons v rest => cases rest <;> rfl
  · rw [isStack_stackHead, Bool.true_and]
    rfl

/-- The stack of a flow is empty if there is nothing to put in. -/
theorem emptyStacks_stackView (f : Flow) (views : List View) :
    (stackView f views).emptyStacks =
      (if views.isEmpty then [stackView f []] else []) ++ views.flatMap View.emptyStacks := by
  have inside : (stackView f views).children.flatMap View.emptyStacks =
      views.flatMap View.emptyStacks := by
    unfold stackView
    split
    · exact flatMap_emptyStacks_intersperse views
    · rfl
  rw [View.emptyStacks_eq, inside, isEmptyStack_stackView]
  cases views <;> rfl

theorem isEmptyStack_layered {views : List View} (present : views ≠ []) :
    (layered views).isEmptyStack = false := by
  rw [View.isEmptyStack, Bool.and_eq_false_iff]
  exact .inr (List.isEmpty_eq_false_iff.mpr present)

/-! ## Nodes -/

/-- The line of a hollow node. -/
def hollowLine (n : Node) : List View :=
  match n.box.layout.mode with
  | .flow f => if n.isHollow then [stackView f []] else []
  | .absolute => []

theorem hollowLine_arranged (n : Node) : hollowLine n.arranged = hollowLine n := by
  rw [hollowLine, hollowLine, Node.box_arranged, Node.isHollow_arranged]

theorem hollowLine_eq_nil_iff (n : Node) : hollowLine n = [] ↔ n.isHollow = false := by
  unfold hollowLine
  cases mode : n.box.layout.mode with
  | absolute => simp [Node.isHollow, Design.Layout.flow?, mode, Design.Mode.flow?]
  | flow f => simp

/-- What `v` has to be as the view of a node, given those of its children: no empty stack itself,
and with no empty stacks inside other than the line of the node, if that has nothing in it, and
those of the children. -/
structure Fills (n : Node) (f : Node → View) (v : View) : Prop where
  own : v.isEmptyStack = false
  inside : v.children.flatMap View.emptyStacks =
    hollowLine n ++ (n.box.lineUp n.children).flatMap fun c => (f c).emptyStacks

theorem fills_leaf {n : Node} (childless : n.children = []) (f : Node → View) {v : View}
    (leaf : v.children = []) (other : v.isStack = false) : Fills n f v := by
  have full : hollowLine n = [] := by
    rw [hollowLine_eq_nil_iff, Node.isHollow, childless]
    simp
  refine ⟨by rw [View.isEmptyStack, other, Bool.false_and], ?_⟩
  rw [leaf, full, childless, Box.lineUp_nil]
  rfl

section

variable {b : Box} {children : List Node} {flow : Flow}

/-- With children at hand, a hollow node is one without anything in its line. -/
theorem isHollow_of_flow (mode : b.layout.mode = .flow flow) (present : children ≠ []) :
    (Node.mk b children).isHollow = (children.filter (!·.isAbsolute)).isEmpty := by
  rw [Bool.eq_iff_iff]
  simp [Node.isHollow, Node.box, Node.children, Design.Layout.flow?, mode, Design.Mode.flow?,
    present]

/-- The line of a flow has the empty stacks of its views, and is one on its own if the node is
hollow. -/
theorem emptyStacks_line (mode : b.layout.mode = .flow flow) (present : children ≠ [])
    (f : Node → View) :
    (stackView flow ((children.filter (!·.isAbsolute)).map f)).emptyStacks =
      hollowLine (.mk b children) ++
        (children.filter (!·.isAbsolute)).flatMap fun c => (f c).emptyStacks := by
  rw [emptyStacks_stackView, List.isEmpty_map, ← isHollow_of_flow mode present, List.flatMap_map]
  simp only [hollowLine, Node.box, mode]

/-- If nothing is at an offset, there is something in the line. -/
theorem flowing_ne_nil (present : children ≠ [])
    (nothing : children.filter (·.isAbsolute) = []) :
    children.filter (!·.isAbsolute) ≠ [] := by
  obtain ⟨c, member⟩ := List.exists_mem_of_ne_nil children present
  have flows := List.filter_eq_nil_iff.mp nothing c member
  exact List.ne_nil_of_mem (List.mem_filter.mpr ⟨member, by simpa using flows⟩)

theorem fills_containerView (f : Node → View) :
    Fills (.mk b children) f (containerView b (children.map fun c => (c, f c))) := by
  by_cases absent : children = []
  · rw [absent]
    have clear : (View.leaf "Color.clear").isStack = false :=
      isStack_of_begins (c := 'C') rfl (by decide)
    exact fills_leaf rfl f rfl clear
  · have present : ¬ children.isEmpty = true := List.isEmpty_iff.not.mpr absent
    unfold containerView
    rw [List.isEmpty_map, if_neg present, Node.placedAs_false, Node.placedAs_true]
    cases mode : b.layout.mode with
    | absolute =>
        have views : children.map f ≠ [] := fun none => absent (List.map_eq_nil_iff.mp none)
        rw [List.map_map]
        refine ⟨isEmptyStack_layered views, ?_⟩
        simp only [hollowLine, Box.lineUp, Node.box, Node.children, mode, layered, View.group,
          View.children, Function.comp_def, List.nil_append, List.flatMap_map]
    | flow flow =>
        have line := emptyStacks_line mode absent f
        have order : (Node.mk b children).box.lineUp (Node.mk b children).children =
            children.filter (!·.isAbsolute) ++ children.filter (·.isAbsolute) := by
          simp only [Box.lineUp, Node.box, Node.children, mode]
        dsimp only
        split
        · rename_i nothing
          have none := List.map_eq_nil_iff.mp nothing
          have own := isEmptyStack_stackView flow ((children.filter (!·.isAbsolute)).map f)
          rw [List.isEmpty_map, List.isEmpty_eq_false_iff.mpr (flowing_ne_nil absent none)] at own
          refine ⟨own, ?_⟩
          rw [← View.emptyStacks_of_nonempty own, line, order, none, List.append_nil]
        · refine ⟨isEmptyStack_layered (List.cons_ne_nil _ _), ?_⟩
          rw [layered, View.group, View.children, List.flatMap_cons, line, order,
            List.flatMap_append, List.flatMap_map, List.append_assoc]

end

theorem fills_base {n : Node} (leaf : isLeaf n = true → n.children = []) (f : Node → View) :
    Fills n f (base n (n.children.map fun c => (c, f c))) := by
  unfold base
  cases style : n.box.style.text with
  | some t =>
      have first : Begins 'T' "Text(" := rfl
      exact fills_leaf (leaf (by rw [isLeaf, style]; rfl)) f rfl
        (isStack_of_begins ((first.append _).append ")") (by decide))
  | none =>
      by_cases image : n.box.kind = .image
      · have first : Begins 'A' "AsyncImage(url: URL(string: " := rfl
        simp only [image, if_true]
        exact fills_leaf (leaf (by simp [isLeaf, image])) f rfl
          (isStack_of_begins ((first.append _).append "))") (by decide))
      · simp only [image, if_false]
        split
        · rename_i line
          have first : Begins 'R' "Rectangle()" := rfl
          exact fills_leaf (leaf (by simp [isLeaf, line])) f rfl
            (isStack_of_begins first (by decide))
        · split
          · rename_i shape
            obtain ⟨c, known, begins⟩ := begins_shape n.box
            have other : ∀ c ∈ ['E', 'R', 'U'], c ∉ ['H', 'V', 'Z'] := by simp
            exact fills_leaf (leaf (by simp [isLeaf, shape])) f rfl
              (isStack_of_begins begins (other c known))
          · cases n with
            | mk b children => exact fills_containerView f

/-! ## Designs -/

theorem emptyStacks_view (names : Bool) (forest : List Node) :
    (∀ n ∈ Node.preorderList forest, isLeaf n = true → n.children = []) →
      ∀ n ∈ forest,
        (view names n).emptyStacks = n.arranged.preorder.flatMap hollowLine := by
  induction forest using Node.forestInduction with
  | nil => exact fun _ n member => nomatch member
  | cons box children rest below after =>
      intro leaves n member
      obtain ⟨own, inner, others⟩ := Node.forall_preorderList_mk_cons.mp leaves
      rcases List.mem_cons.mp member with rfl | later
      · obtain ⟨filled, inside⟩ := fills_base own (view names)
        have each : ((box.lineUp children).flatMap fun c => (view names c).emptyStacks) =
            (Node.preorderList ((box.lineUp children).map Node.arranged)).flatMap hollowLine := by
          rw [Node.preorderList_eq_flatMap, List.flatMap_map, List.flatMap_assoc]
          exact List.flatMap_congr fun c among =>
            below inner c ((box.lineUp_perm children).subset among)
        rw [view, childViews_eq_map, Node.preorder_eq_cons, List.flatMap_cons, hollowLine_arranged,
          Node.children_arranged]
        refine (View.emptyStacks_of_nonempty ?_).trans ?_
        · exact filled
        · exact inside.trans (congrArg _ each)
      · exact after others n later

/-- The views that the code of a forest is printed from: one for the selection, or in an
application one for each root. -/
def codeViews (s : Settings) (forest : List Node) : List View :=
  match s.swiftUIScope with
  | .snippet => [forestView s.showLayerNames forest]
  | .full => forest.map (view s.showLayerNames)

/-- The stack around several roots is not empty, so all empty stacks are those of the roots. -/
theorem emptyStacks_codeViews (s : Settings) {forest : List Node} (present : forest ≠ []) :
    (codeViews s forest).flatMap View.emptyStacks =
      forest.flatMap fun n => (view s.showLayerNames n).emptyStacks := by
  unfold codeViews
  split
  · rw [List.flatMap_singleton, ← List.flatMap_map]
    unfold forestView
    split
    · rename_i only single
      rw [single, List.flatMap_singleton]
    · refine View.emptyStacks_of_nonempty ?_
      rw [View.isEmptyStack, Bool.and_eq_false_iff]
      exact .inr (List.isEmpty_eq_false_iff.mpr fun none => present (List.map_eq_nil_iff.mp none))
  · rw [List.flatMap_map]

theorem infix_join_of_mem {text : String} {texts : List String} (member : text ∈ texts) :
    text.toList <:+: (String.join texts).toList := by
  obtain ⟨before, after, rfl⟩ := List.append_of_mem member
  refine ⟨(String.join before).toList, (String.join after).toList, ?_⟩
  simp [String.toList_join]

theorem exists_mem_zipWith {α β γ : Type} (f : α → β → γ) {left : List α} {right : List β}
    (length : left.length = right.length) {b : β} (member : b ∈ right) :
    ∃ a, f a b ∈ left.zipWith f right := by
  obtain ⟨i, bound, rfl⟩ := List.getElem_of_mem member
  have both : i < (left.zipWith f right).length := by
    rw [List.length_zipWith]
    omega
  have among := List.getElem_mem both
  rw [List.getElem_zipWith] at among
  exact ⟨_, among⟩

/-- The view type of a root has the text of its view in it. -/
theorem infix_viewStruct (name body : String) :
    (Text.indent 8 body).toList <:+: (viewStruct name body).toList := by
  refine ⟨("struct " ++ viewName name ++ ": View \x7b\n    var body: some View \x7b\n").toList,
    "\n    \x7d\n\x7d\n\n".toList, ?_⟩
  unfold viewStruct
  simp only [String.toList_append, List.append_assoc]

/-- An application has a view type for each root. -/
theorem infix_app {s : Settings} {forest : List Node} {n : Node} (member : n ∈ forest) :
    (Text.indent 8 ((view s.showLayerNames n).render 0)).toList <:+: (app s forest).toList := by
  have length : (Design.typeNames forest).length =
      (forest.map fun n => (view s.showLayerNames n).render 0).length := by
    rw [Design.length_typeNames, List.length_map]
  have body : (view s.showLayerNames n).render 0 ∈
      forest.map fun n => (view s.showLayerNames n).render 0 :=
    List.mem_map_of_mem member
  obtain ⟨name, struct⟩ := exists_mem_zipWith viewStruct length body
  refine ((infix_viewStruct name _).trans (infix_join_of_mem struct)).trans ?_
  refine ⟨"import SwiftUI\n\n".toList,
    (contentHead ++ String.join ((Design.typeNames forest).map useLine) ++ appFoot).toList, ?_⟩
  unfold app
  simp only [String.toList_append, List.append_assoc]

/-- The code is the text of its view, or an application in which the texts of its views stand
further in. -/
theorem printed_of_mem_codeViews {s : Settings} {forest : List Node} {w : View}
    (member : w ∈ codeViews s forest) :
    match s.swiftUIScope with
    | .snippet => code s forest = w.render 0
    | .full => (Text.indent 8 (w.render 0)).toList <:+: (code s forest).toList := by
  unfold codeViews at member
  unfold code
  cases scope : s.swiftUIScope with
  | snippet =>
      rw [scope] at member
      cases List.mem_singleton.mp member
      rfl
  | full =>
      rw [scope] at member
      obtain ⟨n, among, rfl⟩ := List.mem_map.mp member
      exact infix_app among

section

variable {s : Settings} {host : Option Scene.Node} {roots : List Scene.Node} {forest : List Node}

/-- The empty stacks in the code of a design are the lines of its hollow nodes, from the first to
the last as they are lined up.  So no stack is empty exactly if no node is hollow; and exactly the
empty ones are printed without a closure. -/
theorem emptyStacks_of_build (built : Design.build s host roots = .ok forest) (t : Settings) :
    (codeViews t forest).flatMap View.emptyStacks =
        (Node.preorderList (Node.arrangedAll forest)).flatMap hollowLine ∧
      ((∀ v ∈ (codeViews t forest).flatMap View.parts, v.isStack = true → v.children ≠ []) ↔
        ∀ n ∈ Node.preorderList forest, n.isHollow = false) ∧
      ∀ w ∈ codeViews t forest,
        (match t.swiftUIScope with
          | .snippet => code t forest = w.render 0
          | .full => (Text.indent 8 (w.render 0)).toList <:+: (code t forest).toList) ∧
        ∀ v ∈ w.parts, ∃ indent, (v.render indent).toList <:+: (w.render 0).toList ∧
          ((v.opened indent).toList <+: (v.render indent).toList ↔ v.children ≠ []) := by
  have present : forest ≠ [] := (Design.build_eq_ok built).2
  have views := emptyStacks_view t.showLayerNames forest
    fun n member leaf =>
      (Design.wellFormed_of_mem_build built member).kept.leaf (.inr (.inr leaf))
  have lines : (codeViews t forest).flatMap View.emptyStacks =
      (Node.preorderList (Node.arrangedAll forest)).flatMap hollowLine := by
    rw [emptyStacks_codeViews t present, List.flatMap_congr views, Node.arrangedAll_eq_map,
      Node.preorderList_eq_flatMap, List.flatMap_map, List.flatMap_assoc]
  refine ⟨lines, ?_, fun w member => ⟨printed_of_mem_codeViews member, fun v part => ?_⟩⟩
  · have empty : (∀ v ∈ (codeViews t forest).flatMap View.parts,
        v.isStack = true → v.children ≠ []) ↔
          (codeViews t forest).flatMap View.emptyStacks = [] := by
      rw [show View.emptyStacks = fun v => v.parts.filter View.isEmptyStack from rfl,
        ← List.filter_flatMap, List.filter_eq_nil_iff]
      simp [View.isEmptyStack]
    rw [empty, lines, List.flatMap_eq_nil_iff]
    simp only [(Node.preorderList_arrangedAll_perm forest).mem_iff, List.forall_mem_map,
      hollowLine_eq_nil_iff, Node.isHollow_arranged]
  · obtain ⟨indent, within⟩ := View.infix_render_of_mem_parts w 0 part
    exact ⟨indent, within, View.opened_isPrefix_iff indent v⟩

/-- A column with a title in it and a row with nothing but a badge at an offset: the line of the
row is the only empty stack. -/
theorem emptyStacks_of_build_badge :
    let frame : Scene.Layer := { nodeType := "FRAME", width := 40.0, height := 20.0 }
    let title : Scene.Node := .mk { nodeType := "TEXT", characters := some "Hi" } []
    let badge : Scene.Node := .mk { frame with positioning := .absolute } []
    let row : Scene.Node := .mk { frame with autoLayout := { mode := .horizontal } } [badge]
    let column : Scene.Node := .mk { frame with autoLayout := { mode := .vertical } } [title, row]
    let forest := (Design.ofSelection .defaults none [column] .empty).1
    Design.build .defaults none [column] = .ok forest ∧
      (Node.preorderList forest).map Node.isHollow = [false, false, true, false] ∧
      (codeViews .defaults forest).flatMap View.emptyStacks =
          (Node.preorderList (Node.arrangedAll forest)).flatMap hollowLine ∧
        ((∀ v ∈ (codeViews .defaults forest).flatMap View.parts,
            v.isStack = true → v.children ≠ []) ↔
          ∀ n ∈ Node.preorderList forest, n.isHollow = false) ∧
        ∀ w ∈ codeViews .defaults forest,
          code .defaults forest = w.render 0 ∧
          ∀ v ∈ w.parts, ∃ indent, (v.render indent).toList <:+: (w.render 0).toList ∧
            ((v.opened indent).toList <+: (v.render indent).toList ↔ v.children ≠ []) := by
  intro frame title badge row column forest
  have built : Design.build .defaults none [column] = .ok forest := rfl
  exact ⟨built, by decide +kernel, emptyStacks_of_build built .defaults⟩

/-- A row with nothing but a badge at an offset has an empty stack in its code. -/
theorem not_filled_row :
    let frame : Scene.Layer := { nodeType := "FRAME", width := 40.0, height := 20.0 }
    let badge : Scene.Node := .mk { frame with positioning := .absolute } []
    let row : Scene.Node := .mk { frame with autoLayout := { mode := .horizontal } } [badge]
    ∃ forest, Design.build .defaults none [row] = .ok forest ∧
      ¬∀ v ∈ (codeViews .defaults forest).flatMap View.parts,
        v.isStack = true → v.children ≠ [] := by
  intro frame badge row
  exact ⟨_, rfl, by decide +kernel⟩

end

end Swift

end Handoff
