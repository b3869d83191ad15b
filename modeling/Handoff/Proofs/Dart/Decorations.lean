import Handoff.Proofs.Dart.Chain

/-!
What decorations are given.

The arguments of a decoration come from the fills, the stroke, the shape and the effects of a
node, each written by code of its own, and Flutter has conditions on them together: no name may
be given twice, a circle may not have rounded corners, and a blend mode needs a color or a
gradient that it blends.  An image is neither, so the decoration of a box whose topmost fill is an
image with a blend mode fails when it is constructed (`BlendsImage`).

`Expr.decorations` reads the decorations off an expression.  Those in the code of a forest are
those of its containers (`decorations_trees`).  The main statement is `decorations_of_forest`.
-/

namespace Handoff.Dart

open Design (Box Node)
open Handoff.Dart.Expr (raw call list commented)

/-! ## Reading expressions -/

namespace Expr

/-- The arguments of a call for a decoration. -/
def decorationArgs? : Expr → Option (List Arg)
  | call name args => if name = "BoxDecoration" then some args else none
  | _ => none

/-- The arguments of the decorations in an expression, from left to right. -/
def decorations (e : Expr) : List (List Arg) := e.parts.filterMap decorationArgs?

/-- The arguments of the decorations in the arguments of a call. -/
def argDecorations (args : List Arg) : List (List Arg) := args.flatMap (·.2.decorations)

@[simp] theorem decorations_raw (text : String) : (raw text).decorations = [] := rfl

@[simp] theorem decorations_list (items : List Expr) :
    (list items).decorations = items.flatMap decorations := by
  rw [decorations, parts, List.filterMap_cons, listParts_eq_flatMap, List.filterMap_flatMap]
  rfl

@[simp] theorem decorations_commented (comment : String) (e : Expr) :
    (commented comment e).decorations = e.decorations := by
  rw [decorations, parts, List.filterMap_cons]
  rfl

@[simp] theorem decorations_call (name : String) (args : List Arg) :
    (call name args).decorations =
      (if name = "BoxDecoration" then [args] else []) ++ argDecorations args := by
  rw [decorations, parts, List.filterMap_cons, argParts_eq_flatMap, List.filterMap_flatMap,
    decorationArgs?]
  by_cases own : name = "BoxDecoration"
  · rw [if_pos own, if_pos own]
    rfl
  · rw [if_neg own, if_neg own]
    rfl

section

variable {name : String} {e : Expr}

@[simp] theorem argDecorations_nil : argDecorations [] = [] := rfl

@[simp] theorem argDecorations_append (first later : List Arg) :
    argDecorations (first ++ later) = argDecorations first ++ argDecorations later :=
  List.flatMap_append

@[simp] theorem argDecorations_arg : argDecorations (arg name e) = e.decorations :=
  List.flatMap_singleton _ _

@[simp] theorem argDecorations_positional : argDecorations (positional e) = e.decorations :=
  List.flatMap_singleton _ _

@[simp] theorem argDecorations_argOpt (given : Option Expr) :
    argDecorations (argOpt name given) = given.toList.flatMap decorations := by
  cases given with
  | none => rfl
  | some e => exact argDecorations_arg.trans (List.flatMap_singleton _ _).symm

@[simp] theorem argDecorations_argIf (condition : Bool) :
    argDecorations (argIf condition name e) = if condition then e.decorations else [] := by
  cases condition <;> simp [argIf]

@[simp] theorem argDecorations_argList (items : List Expr) :
    argDecorations (argList name items) = items.flatMap decorations := by
  unfold argList
  split
  · rename_i empty
    rw [List.isEmpty_iff.mp empty]
    rfl
  · rw [argDecorations_arg, decorations_list]

end

end Expr

open Handoff.Dart.Expr (argDecorations)

/-! ## What has no decoration -/

@[simp] theorem decorations_number (v : Float) : (number v).decorations = [] := rfl

@[simp] theorem decorations_size? (parent : Option Node) (n : Node) (axis : Design.Direction) :
    (size? parent n axis).toList.flatMap Expr.decorations = [] := by
  unfold size?
  split
  · rfl
  · rfl
  · split <;> rfl

@[simp] theorem decorations_padding? (b : Box) :
    (padding? b).toList.flatMap Expr.decorations = [] := by
  unfold padding?
  split
  · split <;> rfl
  · rfl

@[simp] theorem decorations_map {α : Type} {f : α → Expr} (none : ∀ a, (f a).decorations = [])
    (given : Option α) : (given.map f).toList.flatMap Expr.decorations = [] := by
  cases given with
  | none => rfl
  | some a => simp [none]

@[simp] theorem argDecorations_textStyleArgs (t : Design.Typography) :
    argDecorations (textStyleArgs t) = [] := by
  have style : (if t.italic then some (raw "FontStyle.italic") else none).toList.flatMap
      Expr.decorations = [] := by
    split <;> rfl
  have height : (if t.size > 0.0 then
      t.lineHeight.map fun h => raw (Decimal.plain (h / t.size)) else none).toList.flatMap
      Expr.decorations = [] := by
    split
    · exact decorations_map (fun _ => rfl) _
    · rfl
  have spacing : (if t.letterSpacing != 0.0 then some (number t.letterSpacing)
      else none).toList.flatMap Expr.decorations = [] := by
    split <;> rfl
  have decoration : (textDecoration? t.decoration).toList.flatMap Expr.decorations = [] := by
    cases t.decoration <;> rfl
  simp [textStyleArgs, style, height, spacing, decoration, fontWeight]

/-! ## Leaves -/

theorem decorations_textWidget (parent : Option Node) (n : Node) (t : Design.TextStyle) :
    (textWidget parent n t).decorations = [] := by
  have color : (topColor? n.box.style.fills).toList.flatMap Expr.decorations = [] := by
    unfold topColor?
    split <;> rfl
  have align : (textAlign? t.typography.align).toList.flatMap Expr.decorations = [] := by
    cases t.typography.align <;> rfl
  have shadow : ∀ e ∈ n.box.style.effects.filterMap textShadow?, e.decorations = [] := by
    intro e member
    obtain ⟨effect, -, own⟩ := List.mem_filterMap.mp member
    cases effect with
    | dropShadow shadow =>
        cases own
        simp [offset]
    | innerShadow | layerBlur | backgroundBlur => cases own
  have shadows : (n.box.style.effects.filterMap textShadow?).flatMap Expr.decorations = [] :=
    List.flatMap_eq_nil_iff.mpr shadow
  unfold textWidget sized
  dsimp only
  split <;> simp [color, align, shadows]

theorem decorations_imageWidget (b : Box) : (imageWidget b).decorations = [] := by
  unfold imageWidget
  dsimp only
  split
  · rename_i radius given
    have own : radius.decorations = [] := by
      cases corners : b.style.cornerRadius <;> rw [corners] at given <;> cases given
      · rfl
      · simp [circular]
    simp [own]
  · simp

theorem decorations_lineWidget (parent : Option Node) (n : Node) :
    (lineWidget parent n).decorations = [] := by
  simp [lineWidget]

/-! ## Decorations -/

theorem argDecorations_fillArgs (b : Box) : argDecorations (fillArgs b) = [] := by
  have own : ∀ fill, argDecorations (fillArg b fill) = [] := by
    intro fill
    cases fill with
    | solid c => simp [fillArg]
    | linearGradient angle stops => simp [fillArg, linearGradient, List.flatMap_map]
    | image hash scaleMode => cases scaleMode <;> simp [fillArg]
  unfold fillArgs
  split
  · split <;> simp [own, blendMode]
  · rfl

theorem argDecorations_borderArgs (b : Box) : argDecorations (borderArgs b) = [] := by
  unfold borderArgs
  split
  · rename_i stroke _ _ _
    cases stroke.align <;> simp [strokeAlign]
  · rfl

theorem argDecorations_shapeArgs (b : Box) : argDecorations (shapeArgs b) = [] := by
  unfold shapeArgs
  split
  · simp
  · cases b.style.cornerRadius <;> simp [borderRadius?, circular]

theorem argDecorations_shadows (effects : List Design.Effect) :
    (effects.filterMap boxShadow?).flatMap Expr.decorations = [] := by
  refine List.flatMap_eq_nil_iff.mpr fun e member => ?_
  obtain ⟨effect, -, own⟩ := List.mem_filterMap.mp member
  cases effect with
  | dropShadow shadow =>
      cases own
      simp [offset]
  | innerShadow | layerBlur | backgroundBlur => cases own

/-- A decoration is the only one in itself. -/
theorem decorations_decoration? (b : Box) :
    (decoration? b).toList.flatMap Expr.decorations =
      [decorationArgs b].filter (!·.isEmpty) := by
  have inside : argDecorations (decorationArgs b) = [] := by
    simp [decorationArgs, argDecorations_fillArgs, argDecorations_borderArgs,
      argDecorations_shapeArgs, argDecorations_shadows]
  unfold decoration?
  split <;> simp_all

/-! ## Containers -/

section

variable {f : Node → Expr} {children : List Node}

theorem decorations_stack (clips : Bool) (items : List Expr) :
    (stack clips items).decorations = items.flatMap Expr.decorations := by
  simp [stack]

theorem decorations_flowCall (flow : Design.Flow) (hugs : Bool) (items : List Expr) :
    (flowCall flow hugs items).decorations = items.flatMap Expr.decorations := by
  have alignment : (wrapAlignment flow.distribution).decorations = [] := by
    cases flow.distribution <;> rfl
  have crossAlignment : (wrapCrossAlignment flow.alignment).decorations = [] := by
    cases flow.alignment <;> rfl
  have mainAxis : (mainAxisAlignment? flow.distribution).toList.flatMap Expr.decorations = [] := by
    cases flow.distribution <;> rfl
  have crossAxis : (crossAxisAlignment? flow.alignment).toList.flatMap Expr.decorations = [] := by
    cases flow.alignment <;> rfl
  unfold flowCall
  split
  · simp [wrapCall, alignment, crossAlignment]
  · cases direction : flow.direction <;> simp [lineCall, mainAxis, crossAxis, direction]

/-- The widget that holds the children of a node has their decorations as they are lined up. -/
theorem decorations_childrenWidget? (b : Box) :
    (childrenWidget? b (children.map fun c => (c, f c))).toList.flatMap Expr.decorations =
      (b.lineUp children).flatMap fun c => (f c).decorations := by
  unfold childrenWidget? Box.lineUp
  rw [List.isEmpty_map, Node.placedAs_false, Node.placedAs_true]
  split
  · rename_i absent
    rw [List.isEmpty_iff.mp absent]
    cases b.layout.mode <;> rfl
  · cases b.layout.mode with
    | absolute =>
        dsimp only
        rw [List.map_map, Option.toList_some, List.flatMap_singleton, decorations_stack,
          List.flatMap_map]
        rfl
    | flow flow =>
        dsimp only
        rw [List.flatMap_append]
        split
        · rename_i nothing
          rw [List.map_eq_nil_iff.mp nothing, Option.toList_some, List.flatMap_singleton,
            decorations_flowCall, List.flatMap_map, List.flatMap_nil, List.append_nil]
        · rw [Option.toList_some, List.flatMap_singleton, decorations_stack, List.flatMap_cons,
            decorations_flowCall, List.flatMap_map, List.flatMap_map]

/-- A container has a decoration of its own before those of its children. -/
theorem decorations_containerWidget (parent : Option Node) (n : Node) :
    (containerWidget parent n (children.map fun c => (c, f c))).decorations =
      [decorationArgs n.box].filter (!·.isEmpty) ++
        (n.box.lineUp children).flatMap fun c => (f c).decorations := by
  rw [← decorations_childrenWidget?, ← decorations_decoration?]
  unfold containerWidget
  dsimp only
  split
  · rename_i undecorated _
    split <;> simp [undecorated]
  · simp

end

/-! ## Nodes -/

section

variable {e : Expr}

@[simp] theorem decorations_withEffect (effect : Design.Effect) :
    (withEffect e effect).decorations = e.decorations := by
  cases effect <;> simp [withEffect, blurFilter]

@[simp] theorem decorations_effects (effects : List Design.Effect) :
    (effects.foldl withEffect e).decorations = e.decorations := by
  induction effects generalizing e with
  | nil => rfl
  | cons effect rest ih => rw [List.foldl_cons, ih, decorations_withEffect]

/-- Nothing that a widget is wrapped in has a decoration. -/
theorem decorations_wrapped (names : Bool) (b : Box) :
    (wrapped names b e).decorations = e.decorations := by
  have opacity (e : Expr) : (withOpacity b.style.opacity e).decorations = e.decorations := by
    unfold withOpacity
    split <;> simp
  have rotation (e : Expr) :
      (withRotation b.geometry.rotation e).decorations = e.decorations := by
    unfold withRotation
    split <;> simp
  have name (e : Expr) : (withName names b.name e).decorations = e.decorations := by
    unfold withName
    split <;> simp
  rw [wrapped, name, rotation, opacity, decorations_effects]

theorem decorations_placed (parent n : Node) :
    (placed parent n e).decorations = e.decorations := by
  unfold placed
  split
  · simp
  · split <;> simp
  · rfl

end

mutual

/-- The boxes of a node and of those below it that become containers; below a leaf there are
none. -/
def containers : Node → List Box
  | .mk box children => if isLeaf box then [] else box :: listContainers children

/-- The boxes of nodes and of those below them that become containers. -/
def listContainers : List Node → List Box
  | [] => []
  | n :: rest => containers n ++ listContainers rest

end

theorem listContainers_eq_flatMap (nodes : List Node) :
    listContainers nodes = nodes.flatMap containers := by
  induction nodes with
  | nil => rfl
  | cons n rest ih => rw [listContainers, ih, List.flatMap_cons]

/-- The decorations of boxes that have one. -/
def decorationsOf (boxes : List Box) : List (List Arg) :=
  (boxes.map decorationArgs).filter (!·.isEmpty)

theorem decorationsOf_cons (b : Box) (boxes : List Box) :
    decorationsOf (b :: boxes) =
      [decorationArgs b].filter (!·.isEmpty) ++ decorationsOf boxes := by
  rw [decorationsOf, decorationsOf, ← List.filter_append, List.map_cons, List.singleton_append]

theorem decorationsOf_flatMap {α : Type} (f : α → List Box) (items : List α) :
    decorationsOf (items.flatMap f) = items.flatMap fun a => decorationsOf (f a) := by
  simp only [decorationsOf, List.map_flatMap, List.filter_flatMap]

theorem containers_arranged (box : Box) (children : List Node) :
    containers (Node.mk box children).arranged =
      if isLeaf box then []
      else box :: (box.lineUp children).flatMap fun c => containers c.arranged := by
  have kept := Node.children_arranged (.mk box children)
  rw [Node.arranged] at kept ⊢
  rw [containers, listContainers_eq_flatMap, show box.lineUp (Node.arrangedAll children) =
    (box.lineUp children).map Node.arranged from kept, List.flatMap_map]

/-- A leaf has no decorations, and any other node has its own before those of its children. -/
theorem decorations_base (parent : Option Node) {n : Node} {f : Node → Expr}
    {g : Node → List Box} (each : ∀ c ∈ n.children, (f c).decorations = decorationsOf (g c)) :
    (base parent n (n.children.map fun c => (c, f c))).decorations =
      decorationsOf
        (if isLeaf n.box then [] else n.box :: (n.box.lineUp n.children).flatMap g) := by
  have inside : ((n.box.lineUp n.children).flatMap fun c => (f c).decorations) =
      decorationsOf ((n.box.lineUp n.children).flatMap g) := by
    rw [decorationsOf_flatMap]
    exact List.flatMap_congr fun c among => each c ((n.box.lineUp_perm _).mem_iff.mp among)
  unfold base isLeaf
  cases style : n.box.style.text with
  | some t => exact decorations_textWidget parent n t
  | none =>
      by_cases image : n.box.kind = .image
      · simp [image, decorations_imageWidget, decorationsOf]
      · by_cases line : n.box.kind.isLine = true
        · simp [image, line, decorations_lineWidget, decorationsOf]
        · simp [image, line, decorations_containerWidget, inside, decorationsOf_cons]

/-- The widget of a node has the decorations of the containers there, lined up. -/
theorem decorations_widget (names : Bool) (forest : List Node) :
    ∀ n ∈ forest, ∀ parent : Option Node,
      (widget names parent n).decorations = decorationsOf (containers n.arranged) := by
  induction forest using Node.forestInduction with
  | nil => exact fun n member => nomatch member
  | cons box children rest below after =>
      intro n member parent
      rcases List.mem_cons.mp member with rfl | later
      · rw [widget, placedChildren_eq_map, decorations_wrapped, containers_arranged]
        refine @decorations_base parent (.mk box children) _ _ fun c child => ?_
        rw [decorations_placed]
        exact below c child _
      · exact after n later parent

/-- The decorations in the code of a forest are those of its containers. -/
theorem decorations_trees (s : Settings) (forest : List Node) :
    (trees s forest).flatMap Expr.decorations =
      decorationsOf (listContainers (Node.arrangedAll forest)) := by
  have each : ∀ n ∈ forest, (widget s.showLayerNames none n).decorations =
      decorationsOf (containers n.arranged) :=
    fun n member => decorations_widget s.showLayerNames forest n member none
  rw [listContainers_eq_flatMap, Node.arrangedAll_eq_map, List.flatMap_map, decorationsOf_flatMap,
    ← List.flatMap_congr each]
  unfold trees
  split
  · rw [List.flatMap_singleton]
    unfold forestWidget
    split
    · rename_i only single
      obtain ⟨n, rfl, rfl⟩ := List.map_eq_singleton_iff.mp single
      rw [List.flatMap_singleton]
    · simp [List.flatMap_map]
  · exact List.flatMap_map _ _ _

/-! ## What Flutter asks of a decoration -/

/-- The names that arguments are given for. -/
def labels (args : List Arg) : List (Option String) := args.map (·.1)

@[simp] theorem labels_append (first later : List Arg) :
    labels (first ++ later) = labels first ++ labels later :=
  List.map_append

@[simp] theorem labels_arg (name : String) (e : Expr) : labels (arg name e) = [some name] := rfl

/-- If there is a blend mode then also a color or a gradient that it blends. -/
def Blended (args : List Arg) : Prop :=
  some "backgroundBlendMode" ∈ labels args →
    some "color" ∈ labels args ∨ some "gradient" ∈ labels args

/-- The topmost fill of a box is an image with a blend mode. -/
def BlendsImage (b : Box) : Prop :=
  ∃ top hash scaleMode, b.style.fills.getLast? = some top ∧ top.fill = .image hash scaleMode ∧
    top.blendMode ≠ .normal

section

variable (b : Box)

theorem labels_fillArg_sublist (fill : Design.Fill) :
    (labels (fillArg b fill)).Sublist [some "color", some "gradient", some "image"] := by
  cases fill <;> simp [fillArg]

theorem labels_fillArgs_sublist : (labels (fillArgs b)).Sublist
    [some "color", some "gradient", some "image", some "backgroundBlendMode"] := by
  unfold fillArgs
  split
  · rename_i top _
    rw [labels_append]
    refine (labels_fillArg_sublist b top.fill).append ?_
    split
    · exact List.nil_sublist _
    · exact .refl _
  · exact List.nil_sublist _

theorem labels_borderArgs_sublist : (labels (borderArgs b)).Sublist [some "border"] := by
  unfold borderArgs
  split
  · exact .refl _
  · exact List.nil_sublist _

theorem labels_shapeArgs_sublist : (labels (shapeArgs b)).Sublist [some "shape"] ∨
    (labels (shapeArgs b)).Sublist [some "borderRadius"] := by
  unfold shapeArgs
  split
  · exact .inl (.refl _)
  · refine .inr ?_
    cases b.style.cornerRadius with
    | none => exact List.nil_sublist _
    | uniform | perCorner => exact .refl _

theorem labels_argList_sublist (name : String) (items : List Expr) :
    (labels (argList name items)).Sublist [some name] := by
  unfold argList
  split
  · exact List.nil_sublist _
  · exact .refl _

/-- The arguments of a decoration have names out of one of two lists. -/
theorem labels_decorationArgs_sublist : ∃ shape ∈ ["shape", "borderRadius"],
    (labels (decorationArgs b)).Sublist
      ([some "color", some "gradient", some "image", some "backgroundBlendMode"] ++
        [some "border"] ++ [some shape] ++ [some "boxShadow"]) := by
  have around {shape : String} (own : (labels (shapeArgs b)).Sublist [some shape]) :=
    (((labels_fillArgs_sublist b).append (labels_borderArgs_sublist b)).append own).append
      (labels_argList_sublist "boxShadow" (b.style.effects.filterMap boxShadow?))
  simp only [← labels_append] at around
  rcases labels_shapeArgs_sublist b with circle | corners
  · exact ⟨"shape", by simp, around circle⟩
  · exact ⟨"borderRadius", by simp, around corners⟩

theorem nodup_labels_decorationArgs : (labels (decorationArgs b)).Nodup := by
  obtain ⟨shape, either, sublist⟩ := labels_decorationArgs_sublist b
  refine sublist.nodup ?_
  rcases List.mem_pair.mp either with rfl | rfl <;> decide

theorem shaped_decorationArgs :
    ¬(some "shape" ∈ labels (decorationArgs b) ∧
      some "borderRadius" ∈ labels (decorationArgs b)) := by
  obtain ⟨shape, either, sublist⟩ := labels_decorationArgs_sublist b
  rintro ⟨circle, corners⟩
  have circle := sublist.subset circle
  have corners := sublist.subset corners
  rcases List.mem_pair.mp either with rfl | rfl
  · simp at corners
  · simp at circle

/-- Only the topmost fill has a say in what is blended. -/
theorem mem_labels_decorationArgs_iff {name : String}
    (blends : name ∈ ["color", "gradient", "backgroundBlendMode"]) :
    some name ∈ labels (decorationArgs b) ↔ some name ∈ labels (fillArgs b) := by
  have border : some name ∉ labels (borderArgs b) := by
    intro member
    have := (labels_borderArgs_sublist b).subset member
    simp_all
  have shape : some name ∉ labels (shapeArgs b) := by
    intro member
    rcases labels_shapeArgs_sublist b with circle | corners
    · have := circle.subset member
      simp_all
    · have := corners.subset member
      simp_all
  have shadows :
      some name ∉ labels (argList "boxShadow" (b.style.effects.filterMap boxShadow?)) := by
    intro member
    have := (labels_argList_sublist _ _).subset member
    simp_all
  simp [decorationArgs, border, shape, shadows]

theorem blended_decorationArgs_iff : Blended (decorationArgs b) ↔ ¬BlendsImage b := by
  unfold Blended BlendsImage
  rw [mem_labels_decorationArgs_iff b (by simp), mem_labels_decorationArgs_iff b (by simp),
    mem_labels_decorationArgs_iff b (by simp)]
  unfold fillArgs
  cases b.style.fills.getLast? with
  | none => simp [labels]
  | some top =>
      by_cases normal : top.blendMode = .normal
      · cases fill : top.fill <;> simp [fill, fillArg, normal]
      · cases fill : top.fill <;> simp [fill, fillArg, normal]

end

/-! ## The code of a forest -/

theorem mem_decorationsOf_iff {boxes : List Box} {args : List Arg} :
    args ∈ decorationsOf boxes ↔ (∃ b ∈ boxes, decorationArgs b = args) ∧ args ≠ [] := by
  simp [decorationsOf]

/-- How the decorations in the code of a forest are constructed. -/
structure Decorations (s : Settings) (forest : List Node) : Prop where
  /-- They are those of its containers, as far as there is something to draw for them. -/
  drawn : (trees s forest).flatMap Expr.decorations =
    decorationsOf (listContainers (Node.arrangedAll forest))
  named : ∀ args ∈ (trees s forest).flatMap Expr.decorations, (labels args).Nodup
  shaped : ∀ args ∈ (trees s forest).flatMap Expr.decorations,
    ¬(some "shape" ∈ labels args ∧ some "borderRadius" ∈ labels args)
  /-- Each has something to blend just if no container blends an image. -/
  blended_iff : (∀ args ∈ (trees s forest).flatMap Expr.decorations, Blended args) ↔
    ∀ b ∈ listContainers (Node.arrangedAll forest), ¬BlendsImage b

/-- Whatever the forest and the settings are, no decoration has a name twice or rounds the corners
of a circle, and only one with an image blends where there is nothing to blend. -/
theorem decorations_of_forest (s : Settings) (forest : List Node) : Decorations s forest := by
  have drawn := decorations_trees s forest
  have each : ∀ args ∈ (trees s forest).flatMap Expr.decorations, ∃ b, decorationArgs b = args := by
    intro args member
    rw [drawn, mem_decorationsOf_iff] at member
    obtain ⟨⟨b, -, own⟩, -⟩ := member
    exact ⟨b, own⟩
  constructor
  case drawn => exact drawn
  case named =>
    intro args member
    obtain ⟨b, rfl⟩ := each args member
    exact nodup_labels_decorationArgs b
  case shaped =>
    intro args member
    obtain ⟨b, rfl⟩ := each args member
    exact shaped_decorationArgs b
  case blended_iff =>
    rw [drawn]
    constructor
    · intro blended b container
      rw [← blended_decorationArgs_iff]
      intro blends
      refine blended _ (mem_decorationsOf_iff.mpr ⟨⟨b, container, rfl⟩, fun empty => ?_⟩) blends
      rw [empty] at blends
      cases blends
    · intro plain args member
      obtain ⟨⟨b, container, rfl⟩, -⟩ := mem_decorationsOf_iff.mp member
      exact (blended_decorationArgs_iff b).mpr (plain b container)

/-- A photo that is to be multiplied with what lies behind it. -/
theorem not_constructible_photo :
    let photo : Scene.Node := .mk
      { id := "1:1", name := "Photo", nodeType := "FRAME", width := 40.0, height := 20.0,
        fills := [{ paintType := .image, imageHash := some "a", blendMode := .multiply }] } []
    let s := { Settings.defaults with framework := .flutter }
    let forest := (Design.ofSelection s none [photo] .empty).1
    Design.build s none [photo] = .ok forest ∧
      (∃ args ∈ (trees s forest).flatMap Expr.decorations, ¬Blended args) ∧
      code s forest = "Container(\n  width: 40.0,\n  height: 20.0,\n" ++
        "  decoration: BoxDecoration(\n    image: DecorationImage(\n" ++
        "      image: NetworkImage('https://placehold.co/40x20'),\n      fit: BoxFit.cover,\n" ++
        "    ),\n    backgroundBlendMode: BlendMode.multiply,\n  ),\n)" := by
  intro photo s forest
  have blends : ∃ b ∈ listContainers (Node.arrangedAll forest), BlendsImage b :=
    ⟨_, List.mem_cons_self, _, _, _, rfl, rfl, by decide⟩
  refine ⟨rfl, ?_, by decide +kernel⟩
  obtain ⟨b, container, image⟩ := blends
  have unblended : ¬Blended (decorationArgs b) := fun blended =>
    (blended_decorationArgs_iff b).mp blended image
  refine ⟨decorationArgs b, ?_, unblended⟩
  rw [decorations_trees, mem_decorationsOf_iff]
  exact ⟨⟨b, container, rfl⟩, fun empty => unblended (by rw [empty]; rintro ⟨⟩)⟩

end Handoff.Dart
