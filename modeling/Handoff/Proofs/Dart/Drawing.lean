import Handoff.Dart.Code
import Handoff.Proofs.Dart.Values
import Handoff.Proofs.Drawing

/-!
What Flutter code draws.

`Expr.drawings` reads a Dart expression from left to right, all arguments of all calls.  Four
widgets draw something: a text, an image, a container, and a box of some size unless that is
only put around a text.  Everything else holds widgets or values and draws nothing itself.

A node draws what it asks for, lined up (`Dart.drawings_widget`).  Decorations, styles and
numbers draw nothing, whatever they are (`Expr.drawings_of_isValue`).
-/

namespace Handoff.Dart

open Design (Box Node)
open Handoff.Dart.Expr (raw call list commented)

/-! ## Reading expressions -/

namespace Expr

/-- Whether an expression is a text, without anything around it. -/
def isText : Expr → Bool
  | call name _ => name == "Text"
  | _ => false

/-- The text that a call is given as it is. -/
def written : List Arg → String
  | (none, raw text) :: _ => text
  | _ => ""

/-- What a call draws. -/
def figure? (name : String) (args : List Arg) : Option Figure :=
  if name = "Text" then some (.text (written args))
  else if name = "Image.network" then some .image
  else if name = "Container" then some .box
  else if name = "SizedBox" ∧ args.all (!·.2.isText) then some .box
  else none

mutual

/-- What an expression draws. -/
def drawings : Expr → List Drawing
  | raw _ => []
  | call name args =>
    match figure? name args with
    | some figure => [.mk none figure (argDrawings args)]
    | none => argDrawings args
  | list items => listDrawings items
  | commented comment inner => inner.drawings.map (·.labelled comment)

/-- What expressions draw in turn. -/
def listDrawings : List Expr → List Drawing
  | [] => []
  | e :: rest => e.drawings ++ listDrawings rest

/-- What arguments draw in turn. -/
def argDrawings : List (Option String × Expr) → List Drawing
  | [] => []
  | (_, e) :: rest => e.drawings ++ argDrawings rest

end

theorem listDrawings_eq_flatMap (items : List Expr) :
    listDrawings items = items.flatMap drawings := by
  induction items with
  | nil => rfl
  | cons e rest ih => rw [listDrawings, ih, List.flatMap_cons]

theorem argDrawings_eq_flatMap (args : List Arg) :
    argDrawings args = args.flatMap (·.2.drawings) := by
  induction args with
  | nil => rfl
  | cons a rest ih => rw [argDrawings, ih, List.flatMap_cons]

@[simp] theorem argDrawings_append (first later : List Arg) :
    argDrawings (first ++ later) = argDrawings first ++ argDrawings later := by
  simp only [argDrawings_eq_flatMap, List.flatMap_append]

@[simp] theorem argDrawings_arg (name : String) (e : Expr) :
    argDrawings (arg name e) = e.drawings := by
  rw [arg, argDrawings, argDrawings, List.append_nil]

@[simp] theorem argDrawings_positional (e : Expr) : argDrawings (positional e) = e.drawings := by
  rw [positional, argDrawings, argDrawings, List.append_nil]

@[simp] theorem drawings_raw (text : String) : (raw text).drawings = [] := rfl

@[simp] theorem drawings_list (items : List Expr) :
    (list items).drawings = items.flatMap drawings :=
  listDrawings_eq_flatMap items

/-- A call that draws nothing itself draws what its arguments do. -/
theorem drawings_call {name : String} {args : List Arg} (undrawn : figure? name args = none) :
    (call name args).drawings = argDrawings args := by
  rw [drawings, undrawn]

theorem drawings_figure {name : String} {args : List Arg} (figure : Figure)
    (drawn : figure? name args = some figure) :
    (call name args).drawings = [.mk none figure (argDrawings args)] := by
  rw [drawings, drawn]

@[simp] theorem argDrawings_argIf (condition : Bool) (name : String) (e : Expr) :
    argDrawings (argIf condition name e) = if condition then e.drawings else [] := by
  unfold argIf
  split
  · exact argDrawings_arg name e
  · rfl

/-! ## Values -/

theorem figure?_of_mem_valueClasses {name : String} (isClass : name ∈ valueClasses)
    (args : List Arg) : figure? name args = none := by
  simp only [valueClasses, List.mem_cons, List.not_mem_nil, or_false] at isClass
  rcases isClass with rfl | rfl | rfl | rfl | rfl | rfl | rfl | rfl <;> simp [figure?]

/-- Values draw nothing. -/
theorem drawings_of_isValue {e : Expr} (value : e.IsValue) : e.drawings = [] := by
  induction value with
  | raw text => rfl
  | call isClass values ih =>
      rw [drawings_call (figure?_of_mem_valueClasses isClass _), argDrawings_eq_flatMap,
        List.flatMap_eq_nil_iff]
      exact ih
  | list values ih =>
      rw [drawings_list, List.flatMap_eq_nil_iff]
      exact ih

theorem argDrawings_of_areValues {args : List Arg} (values : AreValues args) :
    argDrawings args = [] := by
  rw [argDrawings_eq_flatMap, List.flatMap_eq_nil_iff]
  exact fun a member => drawings_of_isValue (values a member)

theorem argDrawings_argOpt (name : String) {given : Option Expr} (value : IsValue? given) :
    argDrawings (argOpt name given) = [] :=
  argDrawings_of_areValues (areValues_argOpt.mpr value)

end Expr

open Handoff.Dart.Expr (IsValue IsValue? isValue?_map figure? argDrawings drawings_call
  drawings_figure drawings_list drawings_of_isValue argDrawings_arg argDrawings_append
  argDrawings_argOpt)

@[simp] theorem drawings_number (v : Float) : (number v).drawings = [] := rfl

/-! ## Leaves -/

theorem Expr.isText_of_isValue {e : Expr} (value : e.IsValue) : e.isText = false := by
  cases value with
  | raw text => rfl
  | list values => rfl
  | call isClass values =>
      refine beq_eq_false_iff_ne.mpr ?_
      rintro rfl
      exact absurd isClass (by decide)

/-- A box of some size that is not put around a text is drawn. -/
theorem drawings_sizedBox {args : List Arg} (others : args.all (!·.2.isText) = true) :
    (call "SizedBox" args).drawings = [.mk none .box (argDrawings args)] :=
  drawings_figure .box (by simp [figure?, others])

theorem drawings_sized {width height : Option Expr} (isWidth : IsValue? width)
    (isHeight : IsValue? height) {e : Expr} (text : e.isText = true) :
    (sized width height e).drawings = e.drawings := by
  unfold sized
  split
  · rfl
  · rw [drawings_call (by simp [figure?, arg, text])]
    simp [argDrawings_argOpt _ isWidth, argDrawings_argOpt _ isHeight]

theorem drawings_textWidget (parent : Option Node) (n : Node) (t : Design.TextStyle) :
    (textWidget parent n t).drawings =
      [.mk none (.text (literal (t.typography.textCase.apply t.characters))) []] := by
  -- A box that is put around the text for its size is not drawn on its own.
  rw [textWidget, drawings_sized (isValue?_size parent n .horizontal)
    (isValue?_size parent n .vertical) rfl]
  rw [drawings_figure (.text (literal (t.typography.textCase.apply t.characters)))
    (by simp [figure?, positional, Expr.written])]
  rw [argDrawings_append, argDrawings_append, argDrawings_arg,
    drawings_of_isValue (isValue_textStyle _ _ _)]
  simp [argDrawings_argOpt]

theorem drawings_imageWidget (b : Box) : (imageWidget b).drawings = [.mk none .image []] := by
  have image : ∀ args, argDrawings args = [] →
      (call "Image.network" args).drawings = [.mk none .image []] := by
    intro args blank
    rw [drawings_figure .image (by simp [figure?]), blank]
  have size : ∀ extent : Option Float, IsValue? (extent.map number) :=
    isValue?_map isValue_number
  unfold imageWidget
  split
  · rename_i radius given
    rw [drawings_call (by simp [figure?]), argDrawings_append, argDrawings_arg, argDrawings_arg,
      drawings_of_isValue (isValue?_borderRadius _ radius given), List.nil_append]
    exact image _ (by simp [argDrawings_argOpt _ (size _)])
  · exact image _ (by simp [argDrawings_argOpt _ (size _)])

theorem drawings_lineWidget (parent : Option Node) (n : Node) :
    (lineWidget parent n).drawings = [.mk none .box []] := by
  rw [lineWidget, drawings_figure .box (by simp [figure?])]
  have height : IsValue? (n.box.style.stroke.map fun s => number s.weight) :=
    isValue?_map (fun _ => .raw _) _
  have color : IsValue? (n.box.style.topSolidStroke?.map fun c => raw (color c)) :=
    isValue?_map (fun _ => .raw _) _
  simp [argDrawings_argOpt _ (isValue?_size parent n .horizontal), argDrawings_argOpt _ height,
    argDrawings_argOpt _ color]

/-! ## Containers -/

theorem drawings_flowCall (f : Design.Flow) (hugs : Bool) (children : List Expr) :
    (flowCall f hugs children).drawings = children.flatMap Expr.drawings := by
  unfold flowCall
  split
  · rw [wrapCall, drawings_call (by simp [figure?])]
    simp [drawings_of_isValue]
  · rw [lineCall, drawings_call (by cases f.direction <;> simp [figure?])]
    simp [argDrawings_argOpt, drawings_of_isValue]

theorem drawings_stack (clips : Bool) (children : List Expr) :
    (stack clips children).drawings = children.flatMap Expr.drawings := by
  rw [stack, drawings_call (by simp [figure?])]
  simp

theorem isText_flowCall (f : Design.Flow) (hugs : Bool) (children : List Expr) :
    (flowCall f hugs children).isText = false := by
  unfold flowCall
  split
  · simp [wrapCall, Expr.isText]
  · cases direction : f.direction <;> simp [lineCall, Expr.isText, direction]

theorem isText_stack (clips : Bool) (children : List Expr) :
    (stack clips children).isText = false := by
  simp [stack, Expr.isText]

section

variable {f : Node → Expr} {g : Node → Drawing} {children : List Node}

theorem flatMap_drawings (each : ∀ c ∈ children, (f c).drawings = [g c]) :
    (children.map f).flatMap Expr.drawings = children.map g := by
  rw [List.flatMap_map, List.flatMap_congr each, ← List.map_eq_flatMap]

/-- The widget that holds the children of a node draws them as they are lined up. -/
theorem drawings_childrenWidget? (b : Box) (each : ∀ c ∈ children, (f c).drawings = [g c]) :
    argDrawings (argOpt "child" (childrenWidget? b (children.map fun c => (c, f c)))) =
        (b.lineUp children).map g ∧
      ∀ e, childrenWidget? b (children.map fun c => (c, f c)) = some e → e.isText = false := by
  have held : ∀ e : Expr, argDrawings (argOpt "child" (some e)) = e.drawings :=
    argDrawings_arg "child"
  have part : ∀ p : Node → Bool, ((children.filter p).map f).flatMap Expr.drawings =
      (children.filter p).map g :=
    fun p => flatMap_drawings fun c member => each c (List.mem_of_mem_filter member)
  unfold childrenWidget? Box.lineUp
  rw [List.isEmpty_map, Node.placedAs_false, Node.placedAs_true]
  by_cases absent : children.isEmpty = true
  · rw [if_pos absent, List.isEmpty_iff.mp absent]
    refine ⟨?_, fun e missing => nomatch missing⟩
    cases b.layout.mode <;> rfl
  · rw [if_neg absent]
    cases b.layout.mode with
    | absolute =>
        rw [List.map_map]
        refine ⟨?_, by rintro e ⟨⟩; exact isText_stack _ _⟩
        rw [held, drawings_stack]
        exact flatMap_drawings each
    | flow flow =>
        dsimp only
        have line := part (!·.isAbsolute)
        have positioned := part (·.isAbsolute)
        split
        · -- Nothing is at an offset, and the line stands on its own.
          rename_i nothing
          refine ⟨?_, by rintro e ⟨⟩; exact isText_flowCall _ _ _⟩
          rw [nothing] at positioned
          rw [held, drawings_flowCall, line, List.map_append, ← positioned, List.flatMap_nil,
            List.append_nil]
        · -- The line is the first layer of a stack, and draws nothing but what is in it.
          refine ⟨?_, by rintro e ⟨⟩; exact isText_stack _ _⟩
          rw [held, drawings_stack, List.flatMap_cons, drawings_flowCall, line, positioned,
            List.map_append]

/-- A container is drawn as a box, whatever it is made of. -/
theorem drawings_containerWidget (parent : Option Node) (n : Node)
    (each : ∀ c ∈ children, (f c).drawings = [g c]) :
    (containerWidget parent n (children.map fun c => (c, f c))).drawings =
      [.mk none .box ((n.box.lineUp children).map g)] := by
  obtain ⟨inside, notText⟩ := drawings_childrenWidget? n.box each
  have width := isValue?_size parent n .horizontal
  have height := isValue?_size parent n .vertical
  -- None of its arguments is a text, so a plain box is drawn too.
  have value : ∀ {name : String} {v : Option Expr}, IsValue? v →
      (argOpt name v).all (!·.2.isText) = true := by
    intro name v value
    cases v with
    | none => rfl
    | some e => simp [argOpt, Expr.isText_of_isValue (value e rfl)]
  have child : (argOpt "child" (childrenWidget? n.box (children.map fun c => (c, f c)))).all
      (!·.2.isText) = true := by
    cases widget : childrenWidget? n.box (children.map fun c => (c, f c)) with
    | none => rfl
    | some e => simp [argOpt, notText e widget]
  unfold containerWidget
  dsimp only
  split
  · have box := @drawings_sizedBox (argOpt "width" (size? parent n .horizontal) ++
      argOpt "height" (size? parent n .vertical) ++
        argOpt "child" (childrenWidget? n.box (children.map fun c => (c, f c))))
      (by rw [List.all_append, List.all_append, value width, value height, child]; rfl)
    rw [argDrawings_append, argDrawings_append, argDrawings_argOpt _ width,
      argDrawings_argOpt _ height, inside, List.nil_append, List.nil_append] at box
    split
    · rw [drawings_call (by simp [figure?]), argDrawings_arg, box]
    · exact box
  · rw [drawings_figure .box (by simp [figure?])]
    simp [argDrawings_argOpt, inside]

/-- How the text of a node is written. -/
def textLiteral (t : Design.TextStyle) : String :=
  literal (t.typography.textCase.apply t.characters)

theorem drawings_base (parent : Option Node) {n : Node}
    (leaf : isLeaf n.box = true → n.children = [])
    (each : ∀ c ∈ n.children, (f c).drawings = [g c]) :
    (base parent n (n.children.map fun c => (c, f c))).drawings =
      [.mk none (Figure.ofBox textLiteral n.box) ((n.box.lineUp n.children).map g)] := by
  have childless : isLeaf n.box = true → (n.box.lineUp n.children).map g = [] := by
    intro isLeaf
    rw [leaf isLeaf, Box.lineUp_nil, List.map_nil]
  unfold base
  cases style : n.box.style.text with
  | some t =>
      rw [childless (by rw [isLeaf, style]; rfl), Figure.ofBox_text style]
      exact drawings_textWidget parent n t
  | none =>
      by_cases image : n.box.kind = .image
      · rw [childless (by simp [isLeaf, image]), Figure.ofBox_image style image]
        simp only [image, if_true]
        exact drawings_imageWidget n.box
      · rw [Figure.ofBox_box style image]
        by_cases line : n.box.kind.isLine = true
        · rw [childless (by simp [isLeaf, line])]
          simp only [image, line, if_true, if_false]
          exact drawings_lineWidget parent n
        · simp only [image, line, if_false, Bool.false_eq_true]
          exact drawings_containerWidget parent n each

end

/-! ## Nodes -/

theorem drawings_withEffect (e : Expr) (effect : Design.Effect) :
    (withEffect e effect).drawings = e.drawings := by
  cases effect with
  | dropShadow | innerShadow => rfl
  | layerBlur | backgroundBlur => simp [withEffect, drawings_call, figure?, blurFilter]

theorem drawings_withOpacity (opacity : Float) (e : Expr) :
    (withOpacity opacity e).drawings = e.drawings := by
  unfold withOpacity
  split
  · simp [drawings_call, figure?]
  · rfl

theorem drawings_withRotation (rotation : Float) (e : Expr) :
    (withRotation rotation e).drawings = e.drawings := by
  unfold withRotation
  split
  · simp [drawings_call, figure?]
  · rfl

theorem drawings_effects (effects : List Design.Effect) (e : Expr) :
    (effects.foldl withEffect e).drawings = e.drawings := by
  induction effects generalizing e with
  | nil => rfl
  | cons effect rest ih => rw [List.foldl_cons, ih, drawings_withEffect]

/-- How Flutter code draws boxes. -/
def legend (names : Bool) : Legend where
  label b := if names then b.name.map (Text.substitute '\n' [' ']) else none
  figure := .ofBox textLiteral

/-- A widget is drawn under its name, whatever is around it. -/
theorem drawings_wrapped (names : Bool) (b : Box) {e : Expr} {figure : Figure}
    {inside : List Drawing} (drawn : e.drawings = [.mk none figure inside]) :
    (wrapped names b e).drawings = [.mk ((legend names).label b) figure inside] := by
  have under : (withRotation b.geometry.rotation (withOpacity b.style.opacity
      (b.style.effects.foldl withEffect e))).drawings = [.mk none figure inside] := by
    rw [drawings_withRotation, drawings_withOpacity, drawings_effects, drawn]
  unfold wrapped withName legend
  cases names with
  | false => exact under
  | true =>
      cases given : b.name with
      | none =>
          simp only [if_true, given]
          exact under
      | some name =>
          simp only [if_true, given]
          rw [Expr.drawings, under]
          rfl

theorem drawings_placed (parent n : Node) (e : Expr) :
    (placed parent n e).drawings = e.drawings := by
  unfold placed
  split
  · simp [drawings_call, figure?]
  · split
    · simp [drawings_call, figure?]
    · rfl
  · rfl

/-- Flutter code draws well-formed nodes lined up. -/
theorem drawings_widget (names : Bool) (forest : List Node) :
    (∀ n ∈ Node.preorderList forest, n.WellFormed) → ∀ n ∈ forest, ∀ parent : Option Node,
      (widget names parent n).drawings = [n.arranged.drawing (legend names)] := by
  induction forest using Node.forestInduction with
  | nil => exact fun _ n member => nomatch member
  | cons box children rest below after =>
      intro formed n member parent
      obtain ⟨own, inner, others⟩ := Node.forall_preorderList_mk_cons.mp formed
      rcases List.mem_cons.mp member with rfl | later
      · rw [widget, Node.drawing_arranged, placedChildren_eq_map]
        refine drawings_wrapped names box ?_
        refine @drawings_base _ (fun c => c.arranged.drawing (legend names)) parent
          (.mk box children) (fun leaf => own.kept.leaf (.inr (.inl leaf))) ?_
        intro c child
        rw [drawings_placed]
        exact below inner c child _
      · exact after others n later parent

theorem drawings_forestWidget (names : Bool) {forest : List Node}
    (formed : ∀ n ∈ Node.preorderList forest, n.WellFormed) :
    (forestWidget names forest).drawings =
      Node.drawings (legend names) (Node.arrangedAll forest) := by
  have each := drawings_widget names forest formed
  have all : (forest.map (widget names none)).flatMap Expr.drawings =
      forest.map fun n => n.arranged.drawing (legend names) :=
    flatMap_drawings fun n member => each n member none
  rw [Node.drawings_eq_map, Node.arrangedAll_eq_map, List.map_map]
  refine Eq.trans ?_ all
  unfold forestWidget
  split
  · rename_i only single
    rw [single, List.flatMap_singleton]
  · rw [drawings_call (by simp [figure?])]
    simp

end Handoff.Dart
