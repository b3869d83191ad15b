import Handoff.Dart.Code
import Handoff.Proofs.Dart.Values
import Handoff.Proofs.Emission

/-!
Widgets that speak to the widget around them.

`Positioned` says where in a stack its child lies and `Expanded` that its child takes its share
of a row or column.  Either one is understood only right below the widget that it speaks to, and
anywhere else the application fails when it runs.

`Expr.calls` lists the calls of an expression, each with the place where it stands, and
`Expr.parentData` keeps of them the calls of these two.  In the widget of a node they are exactly
those that the placements below the node ask for (`hasParentData_widget`), whatever the widget
is wrapped in and wherever it stands itself.  The main statement is `understood_trees`.
-/

namespace Handoff.Dart

open Design (Box Node Direction Flow)
open Handoff.Dart.Expr (raw call list commented IsValue IsValue? AreValues valueClasses)

/-! ## Calls and their places -/

/-- Where an expression stands. -/
inductive Place where
  /-- There is nothing around it. -/
  | whole
  /-- It is an argument of a call. -/
  | argument (callee : String) (name : Option String)
  /-- It is an item of a list that is an argument of a call. -/
  | item (callee : String) (name : Option String)
  /-- It is an item of any other list, or it is under a comment. -/
  | inner
deriving DecidableEq

/-- Where the items of a list stand. -/
def Place.items : Place → Place
  | argument callee name => item callee name
  | _ => inner

/-- A child among the children of a call. -/
def Place.childOf (callee : String) : Place := .item callee (some "children")

/-- The classes whose widgets speak to the widget around them. -/
def parentDataClasses : List String := ["Positioned", "Expanded"]

namespace Expr

mutual

/-- The calls in an expression at a place, each with its place and by name. -/
def calls (place : Place) : Expr → List (Place × String)
  | raw _ => []
  | call name args => (place, name) :: argCalls name args
  | list items => itemCalls place.items items
  | commented _ inner => inner.calls .inner

/-- The calls in the items of a list that stand at a place. -/
def itemCalls (place : Place) : List Expr → List (Place × String)
  | [] => []
  | e :: rest => e.calls place ++ itemCalls place rest

/-- The calls in the arguments of a call. -/
def argCalls (name : String) : List (Option String × Expr) → List (Place × String)
  | [] => []
  | (label, e) :: rest => e.calls (.argument name label) ++ argCalls name rest

end

/-- The calls in an expression that speak to the widget around them. -/
def parentData (place : Place) (e : Expr) : List (Place × String) :=
  (e.calls place).filter fun c => parentDataClasses.contains c.2

/-- The calls in the arguments of a call that speak to the widget around them. -/
def argParentData (name : String) (args : List Arg) : List (Place × String) :=
  args.flatMap fun a => a.2.parentData (.argument name a.1)

theorem itemCalls_eq_flatMap (place : Place) (items : List Expr) :
    itemCalls place items = items.flatMap (calls place) := by
  induction items with
  | nil => rfl
  | cons e rest ih => rw [itemCalls, ih, List.flatMap_cons]

theorem argCalls_eq_flatMap (name : String) (args : List Arg) :
    argCalls name args = args.flatMap fun a => a.2.calls (.argument name a.1) := by
  induction args with
  | nil => rfl
  | cons a rest ih => rw [argCalls, ih, List.flatMap_cons]

/-- Most calls speak to nobody, and have what their arguments have. -/
theorem parentData_call {name : String} (plain : name ∉ parentDataClasses) (place : Place)
    (args : List Arg) : (call name args).parentData place = argParentData name args := by
  rw [parentData, calls, List.filter_cons_of_neg (by simpa using plain), argCalls_eq_flatMap,
    List.filter_flatMap]
  rfl

theorem parentData_call_of_mem {name : String} (speaks : name ∈ parentDataClasses)
    (place : Place) (args : List Arg) :
    (call name args).parentData place = (place, name) :: argParentData name args := by
  rw [parentData, calls, List.filter_cons_of_pos (by simpa using speaks), argCalls_eq_flatMap,
    List.filter_flatMap]
  rfl

theorem parentData_list (place : Place) (items : List Expr) :
    (list items).parentData place = items.flatMap (parentData place.items) := by
  rw [parentData, calls, itemCalls_eq_flatMap, List.filter_flatMap]
  rfl

theorem parentData_commented (place : Place) (comment : String) (e : Expr) :
    (commented comment e).parentData place = e.parentData .inner := by
  rw [parentData, calls]
  rfl

@[simp] theorem argParentData_append (name : String) (first later : List Arg) :
    argParentData name (first ++ later) = argParentData name first ++ argParentData name later :=
  List.flatMap_append

@[simp] theorem argParentData_arg (name label : String) (e : Expr) :
    argParentData name (arg label e) = e.parentData (.argument name (some label)) :=
  List.flatMap_singleton _ _

/-- The calls that speak to the widget around them are the given ones, wherever the expression
stands. -/
def HasParentData (e : Expr) (found : List (Place × String)) : Prop :=
  ∀ place, e.parentData place = found

/-- Values speak to nobody. -/
theorem hasParentData_of_isValue {e : Expr} (value : e.IsValue) : e.HasParentData [] := by
  induction value with
  | raw text => exact fun _ => rfl
  | call isClass values ih =>
      intro place
      have plain : ∀ name ∈ valueClasses, name ∉ parentDataClasses := by decide
      rw [parentData_call (plain _ isClass), argParentData, List.flatMap_eq_nil_iff]
      exact fun a member => ih a member _
  | list values ih =>
      intro place
      rw [parentData_list, List.flatMap_eq_nil_iff]
      exact fun e member => ih e member _

theorem argParentData_of_areValues (name : String) {args : List Arg} (values : AreValues args) :
    argParentData name args = [] :=
  List.flatMap_eq_nil_iff.mpr fun a member => hasParentData_of_isValue (values a member) _

section

variable {e : Expr} {found : List (Place × String)}

/-- A call around an expression, with values beside it, has what the expression has. -/
theorem HasParentData.around (has : e.HasParentData found) {name : String}
    (plain : name ∉ parentDataClasses) {args : List Arg} (values : AreValues args)
    (label : String) : (call name (args ++ arg label e)).HasParentData found := by
  intro place
  rw [parentData_call plain, argParentData_append, argParentData_of_areValues name values,
    argParentData_arg, List.nil_append]
  exact has _

/-- A call that speaks to the widget around it comes before what is in it. -/
theorem HasParentData.speaking (has : e.HasParentData found) {name : String}
    (speaks : name ∈ parentDataClasses) {args : List Arg} (values : AreValues args)
    (label : String) (place : Place) :
    (call name (args ++ arg label e)).parentData place = (place, name) :: found := by
  rw [parentData_call_of_mem speaks, argParentData_append,
    argParentData_of_areValues name values, argParentData_arg, List.nil_append, has]

/-- The same for an expression that may be missing. -/
theorem HasParentData.aroundOpt {given : Option Expr}
    (has : ∀ e, given = some e → e.HasParentData found) (missing : given = none → found = [])
    {name : String} (plain : name ∉ parentDataClasses) {args : List Arg}
    (values : AreValues args) (label : String) :
    (call name (args ++ argOpt label given)).HasParentData found := by
  cases given with
  | some e => exact (has e rfl).around plain values label
  | none =>
      intro place
      rw [parentData_call plain, missing rfl]
      exact argParentData_of_areValues name (by simpa using values)

end

end Expr

open Handoff.Dart.Expr (HasParentData hasParentData_of_isValue isValue?_map)

/-! ## What placements ask for -/

/-- The class that lines up what flows. -/
def flowClass (f : Flow) : String :=
  if f.wraps then "Wrap"
  else
    match f.direction with
    | .horizontal => "Row"
    | .vertical => "Column"

/-- Where a parent has its child. -/
def childPlace (parent child : Box) : Place :=
  match parent.layout.mode with
  | .absolute => .childOf "Stack"
  | .flow f =>
    if child.layout.placement.isAbsolute then .childOf "Stack" else .childOf (flowClass f)

theorem childPlace_of_mode {parent : Box} (mode : parent.layout.mode = .absolute)
    (child : Box) : childPlace parent child = .childOf "Stack" := by
  rw [childPlace, mode]

theorem childPlace_of_isAbsolute {child : Box}
    (absolute : child.layout.placement.isAbsolute = true) (parent : Box) :
    childPlace parent child = .childOf "Stack" := by
  unfold childPlace
  split
  · rfl
  · rw [if_pos absolute]

theorem childPlace_of_flow {parent child : Box} {f : Flow}
    (mode : parent.layout.mode = .flow f)
    (flows : child.layout.placement.isAbsolute = false) :
    childPlace parent child = .childOf (flowClass f) := by
  rw [childPlace, mode, flows]
  rfl

/-- How a child speaks to its parent: a child at an offset from a stack, and one that fills a
line from that line. -/
def held (parent child : Box) : List (Place × String) :=
  match child.layout.placement, parent.layout.flow? with
  | .absolute _ _, _ => [(.childOf "Stack", "Positioned")]
  | .flow, some f =>
    if !f.wraps && (child.layout.sizing.along f.direction).isFill then
      [(.childOf (flowClass f), "Expanded")]
    else []
  | _, _ => []

mutual

/-- What is said below a node, child by child; a leaf has nothing below it. -/
def parentDataOf : Node → List (Place × String)
  | .mk box children => if isLeaf box then [] else childParentDataOf box children

/-- What children say to their parent, each before what is said below it. -/
def childParentDataOf (parent : Box) : List Node → List (Place × String)
  | [] => []
  | n :: rest => held parent n.box ++ parentDataOf n ++ childParentDataOf parent rest

end

theorem childParentDataOf_eq_flatMap (parent : Box) (children : List Node) :
    childParentDataOf parent children =
      children.flatMap fun c => held parent c.box ++ parentDataOf c := by
  induction children with
  | nil => rfl
  | cons c rest ih => rw [childParentDataOf, ih, List.flatMap_cons]

/-- A call is understood where it stands: a position by a stack, a share by a row or column. -/
structure Understood (c : Place × String) : Prop where
  positioned : c.2 = "Positioned" → c.1 = .childOf "Stack"
  expanded : c.2 = "Expanded" → c.1 = .childOf "Row" ∨ c.1 = .childOf "Column"

/-- Calls that speak to nobody are understood everywhere. -/
theorem understood_of_parentData {e : Expr} {place : Place}
    (understood : ∀ c ∈ e.parentData place, Understood c) :
    ∀ c ∈ e.calls place, Understood c := by
  intro c member
  by_cases speaks : c.2 ∈ parentDataClasses
  · exact understood c (List.mem_filter.mpr ⟨member, by simpa using speaks⟩)
  · constructor
    · exact fun named => (speaks (by rw [named]; decide)).elim
    · exact fun named => (speaks (by rw [named]; decide)).elim

theorem understood_held (parent child : Box) : ∀ c ∈ held parent child, Understood c := by
  unfold held
  split
  · rw [List.forall_mem_singleton]
    exact ⟨fun _ => rfl, fun other => absurd other (by decide)⟩
  · rename_i f _ _
    split
    · rename_i fills
      rw [List.forall_mem_singleton]
      refine ⟨fun other => absurd other (by simp), fun _ => ?_⟩
      obtain ⟨straight, -⟩ := Bool.and_eq_true_iff.mp fills
      rw [flowClass, if_neg (by simpa using straight)]
      cases f.direction with
      | horizontal => exact .inl rfl
      | vertical => exact .inr rfl
    · exact fun _ member => nomatch member
  · exact fun _ member => nomatch member

theorem understood_parentDataOf (forest : List Node) :
    ∀ n ∈ forest, ∀ c ∈ parentDataOf n, Understood c := by
  induction forest using Node.forestInduction with
  | nil => exact fun n member => nomatch member
  | cons box children rest below after =>
      intro n member
      rcases List.mem_cons.mp member with rfl | later
      · rw [parentDataOf]
        split
        · exact fun _ member => nomatch member
        · intro c said
          rw [childParentDataOf_eq_flatMap, List.mem_flatMap] at said
          obtain ⟨child, isChild, own⟩ := said
          rcases List.mem_append.mp own with own | inside
          · exact understood_held box child.box c own
          · exact below child isChild c inside
      · exact after n later

/-! ## Leaves -/

theorem hasParentData_textWidget (parent : Option Node) (n : Node) (t : Design.TextStyle) :
    (textWidget parent n t).HasParentData [] := by
  have text : (call "Text" (positional (raw (literal (t.typography.textCase.apply t.characters))) ++
      argOpt "textAlign" (textAlign? t.typography.align) ++
      arg "style" (call "TextStyle" (textStyleArgs t.typography ++
        argOpt "color" (topColor? n.box.style.fills) ++
        argList "shadows" (n.box.style.effects.filterMap textShadow?))))).HasParentData [] :=
    (hasParentData_of_isValue (isValue_textStyle _ _ _)).around (by decide)
      (by simp) "style"
  unfold textWidget sized
  dsimp only
  split
  · exact text
  · exact text.around (by decide) (by simp) "child"

theorem hasParentData_imageWidget (b : Box) : (imageWidget b).HasParentData [] := by
  have size : ∀ extent : Option Float, IsValue? (extent.map number) :=
    isValue?_map isValue_number
  have image : (call "Image.network" (positional (raw ("'" ++ b.placeholder ++ "'")) ++
      argOpt "width" (b.layout.sizing.horizontal.fixed?.map number) ++
      argOpt "height" (b.layout.sizing.vertical.fixed?.map number) ++
      arg "fit" (raw "BoxFit.cover"))).HasParentData [] :=
    (hasParentData_of_isValue (.raw _)).around (by decide)
      (by simp [size]) "fit"
  unfold imageWidget
  dsimp only
  split
  · rename_i radius given
    have value : radius.IsValue := isValue?_borderRadius _ radius given
    exact image.around (by decide) (by simpa using value) "child"
  · exact image

theorem hasParentData_lineWidget (parent : Option Node) (n : Node) :
    (lineWidget parent n).HasParentData [] := by
  have height : IsValue? (n.box.style.stroke.map fun s => number s.weight) :=
    isValue?_map (fun _ => .raw _) _
  have color : IsValue? (n.box.style.topSolidStroke?.map fun c => raw (color c)) :=
    isValue?_map (fun _ => .raw _) _
  exact .aroundOpt (fun e given => hasParentData_of_isValue (color e given)) (fun _ => rfl)
    (by decide) (by simp [height]) "color"

/-! ## Wrappers -/

section

variable {e : Expr} {found : List (Place × String)}

theorem Expr.HasParentData.withEffect (has : e.HasParentData found) (effect : Design.Effect) :
    (withEffect e effect).HasParentData found := by
  cases effect with
  | dropShadow | innerShadow => exact has
  | layerBlur radius => exact has.around (by decide) (by simp [blurFilter]) "child"
  | backgroundBlur radius =>
      have filter : AreValues (arg "filter" (blurFilter radius)) := by simp [blurFilter]
      have filtered : (call "BackdropFilter" (arg "filter" (blurFilter radius) ++
          arg "child" e)).HasParentData found := has.around (by decide) filter "child"
      exact filtered.around (by decide) Expr.areValues_nil "child"

theorem Expr.HasParentData.effects (has : e.HasParentData found) (effects : List Design.Effect) :
    (effects.foldl Dart.withEffect e).HasParentData found := by
  induction effects generalizing e with
  | nil => exact has
  | cons effect rest ih => exact ih (has.withEffect effect)

theorem Expr.HasParentData.withOpacity (has : e.HasParentData found) (opacity : Float) :
    (withOpacity opacity e).HasParentData found := by
  unfold Dart.withOpacity
  split
  · exact has.around (by decide) (by simp) "child"
  · exact has

theorem Expr.HasParentData.withRotation (has : e.HasParentData found) (rotation : Float) :
    (withRotation rotation e).HasParentData found := by
  unfold Dart.withRotation
  split
  · exact has.around (by decide) (by simp) "child"
  · exact has

theorem Expr.HasParentData.withName (has : e.HasParentData found) (names : Bool)
    (name : Option String) : (withName names name e).HasParentData found := by
  unfold Dart.withName
  split
  · intro place
    rw [Expr.parentData_commented]
    exact has _
  · exact has

/-- Nothing that a widget is wrapped in speaks to the widget around it. -/
theorem Expr.HasParentData.wrapped (has : e.HasParentData found) (names : Bool) (b : Box) :
    (wrapped names b e).HasParentData found :=
  (((has.effects b.style.effects).withOpacity _).withRotation _).withName _ _

/-- Where a parent has its child, the widget of the child says what it has to say to the parent
before all else. -/
theorem Expr.HasParentData.placed (has : e.HasParentData found) (parent n : Node) :
    (placed parent n e).parentData (childPlace parent.box n.box) =
      held parent.box n.box ++ found := by
  unfold Dart.placed held
  cases placement : n.box.layout.placement with
  | root => exact has _
  | absolute left top =>
      rw [childPlace_of_isAbsolute (by rw [placement]; rfl)]
      exact has.speaking (by decide) (by simp) "child" _
  | flow =>
      unfold Design.Layout.flow?
      cases mode : parent.box.layout.mode with
      | absolute => exact has _
      | flow f =>
          rw [childPlace_of_flow mode (by rw [placement]; rfl)]
          dsimp only [Design.Mode.flow?]
          split
          · exact has.speaking (by decide) Expr.areValues_nil "child" _
          · exact has _

end

/-! ## Containers -/

section

variable {b : Box} {f : Node → Expr} {g : Node → List (Place × String)} {children : List Node}

/-- A call that lists widgets among values has what the widgets have there. -/
theorem parentData_children {name : String} (plain : name ∉ parentDataClasses) {args : List Arg}
    (values : AreValues args) (place : Place) (widgets : List Expr) :
    (call name (args ++ arg "children" (list widgets))).parentData place =
      widgets.flatMap (Expr.parentData (.childOf name)) := by
  rw [Expr.parentData_call plain, Expr.argParentData_append,
    Expr.argParentData_of_areValues name values, Expr.argParentData_arg, Expr.parentData_list]
  rfl

theorem parentData_stack (clips : Bool) (place : Place) (widgets : List Expr) :
    (stack clips widgets).parentData place =
      widgets.flatMap (Expr.parentData (.childOf "Stack")) :=
  parentData_children (by decide) (by simp) place widgets

theorem parentData_flowCall (flow : Flow) (hugs : Bool) (place : Place)
    (widgets : List Expr) :
    (flowCall flow hugs widgets).parentData place =
      widgets.flatMap (Expr.parentData (.childOf (flowClass flow))) := by
  unfold flowCall flowClass
  split
  · exact parentData_children (by decide) (by simp) place widgets
  · unfold lineCall
    cases flow.direction with
    | horizontal | vertical => exact parentData_children (by decide) (by simp) place widgets

theorem flatMap_parentData {place : Place} {kept : List Node}
    (each : ∀ c ∈ kept, (f c).parentData place = g c) :
    (kept.map f).flatMap (Expr.parentData place) = kept.flatMap g := by
  rw [List.flatMap_map, List.flatMap_congr each]

/-- The widget that holds the children of a node has what they say, as they are lined up. -/
theorem hasParentData_childrenWidget?
    (each : ∀ c ∈ children, (f c).parentData (childPlace b c.box) = g c) :
    ∀ e, childrenWidget? b (children.map fun c => (c, f c)) = some e →
      e.HasParentData ((b.lineUp children).flatMap g) := by
  intro e given place
  unfold childrenWidget? at given
  rw [List.isEmpty_map, Node.placedAs_false, Node.placedAs_true] at given
  split at given
  · cases given
  unfold Box.lineUp
  cases mode : b.layout.mode with
  | absolute =>
      simp only [mode] at given
      cases given
      rw [List.map_map, parentData_stack]
      refine flatMap_parentData fun c member => ?_
      rw [← each c member, childPlace_of_mode mode]
      rfl
  | flow flow =>
      simp only [mode] at given
      -- What flows stands in the line, and what is at an offset in the stack on top of it.
      have line : ((children.filter (!·.isAbsolute)).map f).flatMap (Expr.parentData
          (.childOf (flowClass flow))) = (children.filter (!·.isAbsolute)).flatMap g := by
        refine flatMap_parentData fun c kept => ?_
        obtain ⟨member, other⟩ := List.mem_filter.mp kept
        have flows : c.isAbsolute = false := by simpa using other
        rw [← each c member, childPlace_of_flow mode flows]
      have layers : ((children.filter (·.isAbsolute)).map f).flatMap
          (Expr.parentData (.childOf "Stack")) = (children.filter (·.isAbsolute)).flatMap g := by
        refine flatMap_parentData fun c kept => ?_
        obtain ⟨member, absolute⟩ := List.mem_filter.mp kept
        rw [← each c member, childPlace_of_isAbsolute absolute]
      rw [List.flatMap_append, ← layers]
      split at given
      · rename_i nothing
        cases given
        rw [nothing, parentData_flowCall, line, List.flatMap_nil, List.append_nil]
      · cases given
        rw [parentData_stack, List.flatMap_cons, parentData_flowCall, line]

theorem hasParentData_containerWidget (parent : Option Node) {n : Node}
    (each : ∀ c ∈ n.children, (f c).parentData (childPlace n.box c.box) = g c) :
    (containerWidget parent n (n.children.map fun c => (c, f c))).HasParentData
      ((n.box.lineUp n.children).flatMap g) := by
  have inside := hasParentData_childrenWidget? each
  have missing : childrenWidget? n.box (n.children.map fun c => (c, f c)) = none →
      (n.box.lineUp n.children).flatMap g = [] := by
    intro absent
    by_cases none : n.children = []
    · rw [none, Box.lineUp_nil, List.flatMap_nil]
    · obtain ⟨child, found, -⟩ := sublist_childrenWidget? n.box none f
      cases absent.symm.trans found
  unfold containerWidget
  dsimp only
  split
  · have box : (call "SizedBox" (argOpt "width" (size? parent n .horizontal) ++
        argOpt "height" (size? parent n .vertical) ++
        argOpt "child" (childrenWidget? n.box (n.children.map fun c => (c, f c))))).HasParentData
          ((n.box.lineUp n.children).flatMap g) :=
      .aroundOpt inside missing (by decide) (by simp) "child"
    split
    · exact box.around (by decide) Expr.areValues_nil "child"
    · exact box
  · exact .aroundOpt inside missing (by decide) (by simp) "child"

/-- The widget for what a node is has what the children say, unless it is a leaf. -/
theorem hasParentData_base (parent : Option Node) {n : Node}
    (each : ∀ c ∈ n.children, (f c).parentData (childPlace n.box c.box) = g c) :
    (base parent n (n.children.map fun c => (c, f c))).HasParentData
      (if isLeaf n.box then [] else (n.box.lineUp n.children).flatMap g) := by
  unfold base isLeaf
  cases style : n.box.style.text with
  | some t => exact hasParentData_textWidget parent n t
  | none =>
      by_cases image : n.box.kind = .image
      · simp only [image, if_true, beq_self_eq_true, Bool.or_true, Bool.true_or]
        exact hasParentData_imageWidget n.box
      · by_cases line : n.box.kind.isLine = true
        · simp only [image, line, if_true, if_false, Bool.or_true]
          exact hasParentData_lineWidget parent n
        · have other : (n.box.kind == .image) = false := beq_eq_false_iff_ne.mpr image
          simp only [image, line, other, if_false, Bool.or_false, Option.isSome_none,
            Bool.false_eq_true]
          exact hasParentData_containerWidget parent each

end

/-! ## Nodes -/

theorem parentDataOf_arranged (box : Box) (children : List Node) :
    parentDataOf (Node.mk box children).arranged =
      if isLeaf box then []
      else (box.lineUp children).flatMap fun c => held box c.box ++ parentDataOf c.arranged := by
  have kept := Node.children_arranged (.mk box children)
  rw [Node.arranged] at kept ⊢
  rw [parentDataOf, childParentDataOf_eq_flatMap, show box.lineUp (Node.arrangedAll children) =
    (box.lineUp children).map Node.arranged from kept, List.flatMap_map]
  simp only [Node.box_arranged]

/-- The widget of a node has exactly what is said below the node, lined up. -/
theorem hasParentData_widget (names : Bool) (forest : List Node) :
    ∀ n ∈ forest, ∀ parent : Option Node,
      (widget names parent n).HasParentData (parentDataOf n.arranged) := by
  induction forest using Node.forestInduction with
  | nil => exact fun n member => nomatch member
  | cons box children rest below after =>
      intro n member parent
      rcases List.mem_cons.mp member with rfl | later
      · rw [widget, placedChildren_eq_map, parentDataOf_arranged]
        refine Expr.HasParentData.wrapped ?_ names box
        refine @hasParentData_base _ (fun c => held box c.box ++ parentDataOf c.arranged) parent
          (.mk box children) fun c child => ?_
        exact (below c child _).placed (.mk box children) c
      · exact after n later parent

/-! ## The code of a forest -/

/-- The expressions that the code of a forest is printed from: one for all roots, or one for
each. -/
def trees (s : Settings) (forest : List Node) : List Expr :=
  match s.flutterScope with
  | .snippet => [forestWidget s.showLayerNames forest]
  | .full => forest.map (widget s.showLayerNames none)

theorem hasParentData_forestWidget (names : Bool) (forest : List Node) :
    (forestWidget names forest).HasParentData
      ((Node.arrangedAll forest).flatMap parentDataOf) := by
  have each := fun n member => hasParentData_widget names forest n member none
  rw [Node.arrangedAll_eq_map, List.flatMap_map]
  intro place
  unfold forestWidget
  split
  · rename_i only single
    obtain ⟨n, rfl, rfl⟩ := List.map_eq_singleton_iff.mp single
    rw [List.flatMap_singleton]
    exact each n (List.mem_singleton_self n) place
  · rw [parentData_children (by decide) (by simp)]
    exact flatMap_parentData fun n member => each n member _

/-- How the widgets of a forest speak to those around them. -/
structure ParentData (s : Settings) (forest : List Node) : Prop where
  snippet : s.flutterScope = .snippet → ∃ tree, trees s forest = [tree] ∧
    code s forest = tree.render 0
  full : s.flutterScope = .full → code s forest =
    appHead (listBlurs forest) ++ String.join ((Design.typeNames forest).map useLine) ++ appFoot ++
      String.join ((Design.typeNames forest).zipWith widgetClass
        ((trees s forest).map (Expr.render 4)))
  /-- Every position and every share is understood where it stands. -/
  understood : ∀ tree ∈ trees s forest, ∀ c ∈ tree.calls .whole, Understood c
  /-- There are no others than the placements of the nodes ask for, and none is missing. -/
  said : (trees s forest).flatMap (Expr.parentData .whole) =
    (Node.arrangedAll forest).flatMap parentDataOf

/-- Whatever the forest and the settings are, positions are understood by stacks and shares by
rows and columns, and each is said once for every child that asks for it. -/
theorem understood_trees (s : Settings) (forest : List Node) : ParentData s forest := by
  have each := fun n member => hasParentData_widget s.showLayerNames forest n member none
  have below := understood_parentDataOf (Node.arrangedAll forest)
  refine ⟨fun scope => ?_, fun scope => ?_, fun tree member => ?_, ?_⟩
  · unfold trees code
    rw [scope]
    exact ⟨_, rfl, rfl⟩
  · unfold trees code app
    rw [scope, List.map_map]
    rfl
  · refine understood_of_parentData fun c said => ?_
    unfold trees at member
    split at member
    · rw [List.mem_singleton.mp member, hasParentData_forestWidget] at said
      obtain ⟨n, among, inside⟩ := List.mem_flatMap.mp said
      exact below n among c inside
    · obtain ⟨n, root, rfl⟩ := List.mem_map.mp member
      rw [each n root] at said
      refine below n.arranged ?_ c said
      rw [Node.arrangedAll_eq_map]
      exact List.mem_map_of_mem root
  · unfold trees
    split
    · rw [List.flatMap_singleton]
      exact hasParentData_forestWidget _ forest _
    · rw [Node.arrangedAll_eq_map, List.flatMap_map, List.flatMap_map]
      exact List.flatMap_congr fun n root => each n root _

/-- A row with a text that takes its share of it and a mark at an offset. -/
example :
    let mark : Scene.Node := .mk { nodeType := "RECTANGLE", positioning := .absolute } []
    let text : Scene.Node := .mk { nodeType := "TEXT", layoutGrow := 1.0 } []
    let row : Scene.Node :=
      .mk { nodeType := "FRAME", autoLayout := { mode := .horizontal } } [mark, text]
    (Node.arrangedAll (Design.ofSelection Settings.defaults none [row] .empty).1).flatMap
        parentDataOf =
      [(.childOf "Row", "Expanded"), (.childOf "Stack", "Positioned")] := by
  decide +kernel

end Handoff.Dart
