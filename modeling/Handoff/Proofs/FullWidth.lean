import Handoff.Proofs.Css.Properties
import Handoff.Proofs.Design.RootWidth
import Handoff.Proofs.Html.Classes
import Handoff.Target

/-!
Roots that fill the width, in the code.

A root whose width is to be filled is written by every target in the words it has for that: a
declaration, a class, an argument of its widget, a frame of its view.  HTML, Tailwind and SwiftUI
do so whatever the root is.  In Flutter the widget of an image is sized by other code than all
other widgets, and it is the one that says nothing of a width that is filled.

`Dart.Expr.FillsWidth` looks for the argument below the widgets that only change how a widget is
drawn.  The main statement is `fullWidth_of_build`.
-/

namespace Handoff

open Design (Node Box Kind)

/-! ## Declarations -/

namespace Css

/-- A root that fills the width declares to be as wide as what is around it. -/
theorem width_mem_declarations {n : Node} (root : n.box.layout.placement = .root)
    (fill : n.box.layout.sizing.horizontal = .fill) :
    ⟨"width", "100%"⟩ ∈ declarations none n := by
  have width : size none n .horizontal = [⟨"width", "100%"⟩] := by
    simp [size, Design.Sizing.along, fill, root, sizeProperty]
  unfold declarations
  rw [width]
  simp only [List.append_assoc, List.singleton_append]
  rw [← List.append_assoc (placement n)]
  have later : ∀ e ∈ size none n .vertical ++ (content n ++ (corners n ++ (effects n ++ finish n))),
      e.property ≠ "width" := by
    simp only [List.forall_mem_append]
    refine ⟨?high, content_property_ne n (by decide), ?rounded, ?effects, ?finished⟩
    case high => exact (declares_size none n .vertical).property_ne (by decide)
    case rounded => exact (declares_corners n).property_ne (by decide)
    case effects => exact (declares_effects n).property_ne (by decide)
    case finished => exact (declares_finish n).property_ne (by decide)
  exact mem_settle _ later

end Css

/-! ## Widgets -/

namespace Dart

open Handoff.Dart.Expr (raw call commented)

/-- The classes whose widgets only change how the widget in them is drawn. -/
def drawingClasses : List String :=
  ["ClipRect", "ClipRRect", "ImageFiltered", "BackdropFilter", "Opacity", "Transform.rotate"]

/-- A widget asks for all the width there is, or only changes how one is drawn that does. -/
inductive Expr.FillsWidth : Expr → Prop where
  | own {name : String} {args : List Arg} :
    (some "width", raw "double.infinity") ∈ args → FillsWidth (call name args)
  | around {name : String} {args : List Arg} {child : Expr} :
    name ∈ drawingClasses → (some "child", child) ∈ args → child.FillsWidth →
      FillsWidth (call name args)
  | named {comment : String} {inner : Expr} :
    inner.FillsWidth → FillsWidth (commented comment inner)

theorem Expr.fillsWidth_call {name : String} {args : List Arg} :
    (call name args).FillsWidth ↔
      (some "width", raw "double.infinity") ∈ args ∨
        name ∈ drawingClasses ∧ ∃ child, (some "child", child) ∈ args ∧ child.FillsWidth := by
  constructor
  · rintro (wide | ⟨drawn, member, inner⟩)
    · exact .inl wide
    · exact .inr ⟨drawn, _, member, inner⟩
  · rintro (wide | ⟨drawn, child, member, inner⟩)
    · exact .own wide
    · exact .around drawn member inner

theorem Expr.fillsWidth_commented {comment : String} {inner : Expr} :
    (commented comment inner).FillsWidth ↔ inner.FillsWidth :=
  ⟨fun | .named wide => wide, .named⟩

/-- A call that only changes how its child is drawn fills the width if that does. -/
theorem Expr.fillsWidth_drawing {name : String} {before : List Arg} {child : Expr}
    (drawn : name ∈ drawingClasses)
    (others : ∀ a ∈ before, a.1 ≠ some "width" ∧ a.1 ≠ some "child") :
    (call name (before ++ arg "child" child)).FillsWidth ↔ child.FillsWidth := by
  rw [fillsWidth_call]
  constructor
  · rintro (wide | ⟨-, inner, member, wide⟩)
    · rcases List.mem_append.mp wide with early | last
      · exact absurd rfl (others _ early).1
      · simp [arg] at last
    · rcases List.mem_append.mp member with early | last
      · exact absurd rfl (others _ early).2
      · simp only [arg, List.mem_singleton, Prod.mk.injEq, true_and] at last
        exact last ▸ wide
  · intro wide
    exact .inr ⟨drawn, child, List.mem_append_right _ List.mem_cons_self, wide⟩

theorem fillsWidth_withEffect (widget : Expr) (e : Design.Effect) :
    (withEffect widget e).FillsWidth ↔ widget.FillsWidth := by
  cases e with
  | dropShadow | innerShadow => exact Iff.rfl
  | layerBlur radius => exact Expr.fillsWidth_drawing (by decide) (by simp [arg])
  | backgroundBlur radius =>
      refine (@Expr.fillsWidth_drawing _ [] _ (by decide) (List.forall_mem_nil _)).trans ?_
      exact Expr.fillsWidth_drawing (by decide) (by simp [arg])

/-- What is drawn around the widget of a node leaves its width as it is. -/
theorem fillsWidth_wrapped (names : Bool) (b : Box) (widget : Expr) :
    (wrapped names b widget).FillsWidth ↔ widget.FillsWidth := by
  have effects : ∀ (es : List Design.Effect) (widget : Expr),
      (es.foldl withEffect widget).FillsWidth ↔ widget.FillsWidth := by
    intro es
    induction es with
    | nil => exact fun _ => Iff.rfl
    | cons e es ih => exact fun widget => (ih _).trans (fillsWidth_withEffect widget e)
  have opacity (widget : Expr) :
      (withOpacity b.style.opacity widget).FillsWidth ↔ widget.FillsWidth := by
    unfold withOpacity
    split
    · exact Expr.fillsWidth_drawing (by decide) (by simp [arg])
    · exact Iff.rfl
  have rotation (widget : Expr) :
      (withRotation b.geometry.rotation widget).FillsWidth ↔ widget.FillsWidth := by
    unfold withRotation
    split
    · exact Expr.fillsWidth_drawing (by decide) (by simp [arg])
    · exact Iff.rfl
  have name (widget : Expr) : (withName names b.name widget).FillsWidth ↔ widget.FillsWidth := by
    unfold withName
    split
    · exact Expr.fillsWidth_commented
    · exact Iff.rfl
  unfold wrapped
  rw [name, rotation, opacity, effects]

/-- Only a flow around a node can take its width over, and there is none around a root. -/
theorem size?_eq_infinity {n : Node} (fill : n.box.layout.sizing.horizontal = .fill) :
    size? none n .horizontal = some (raw "double.infinity") := by
  have alone : expands none n .horizontal = false := by
    unfold expands
    split
    · rename_i f _ missing
      cases missing
    · rfl
  simp [size?, Design.Sizing.along, fill, alone]

/-- No argument of the widget of an image is for a width that is filled. -/
theorem not_fillsWidth_imageWidget {b : Box} (fill : b.layout.sizing.horizontal = .fill) :
    ¬(imageWidget b).FillsWidth := by
  have image : ∀ url : String, ¬(call "Image.network" (positional (raw url) ++
      argOpt "width" (b.layout.sizing.horizontal.fixed?.map number) ++
      argOpt "height" (b.layout.sizing.vertical.fixed?.map number) ++
      arg "fit" (raw "BoxFit.cover"))).FillsWidth := by
    intro url
    rw [Expr.fillsWidth_call, fill]
    rintro (wide | ⟨drawn, -⟩)
    · simp [positional, argOpt, arg, Design.Extent.fixed?] at wide
    · revert drawn
      decide
  unfold imageWidget
  dsimp only
  split
  · rw [Expr.fillsWidth_drawing (by decide) (by simp [arg])]
    exact image _
  · exact image _

theorem fillsWidth_containerWidget {n : Node} (fill : n.box.layout.sizing.horizontal = .fill)
    (placed : List (Node × Expr)) : (containerWidget none n placed).FillsWidth := by
  unfold containerWidget
  rw [size?_eq_infinity fill]
  dsimp only
  split
  · split
    · exact .around (by decide) List.mem_cons_self (.own (by simp [argOpt]))
    · exact .own (by simp [argOpt])
  · exact .own (by simp [argOpt])

/-- The widget of a root fills the width with it, unless it is an image. -/
theorem fillsWidth_widget_iff (names : Bool) {n : Node}
    (fill : n.box.layout.sizing.horizontal = .fill)
    (text : n.box.style.text.isSome = true → n.box.kind = .text) :
    (widget names none n).FillsWidth ↔ n.box.kind ≠ .image := by
  rcases n with ⟨box, children⟩
  rw [widget, fillsWidth_wrapped]
  unfold base
  split
  · rename_i t set
    have kind : box.kind = .text := text (by rw [set]; rfl)
    have wide : (textWidget none (.mk box children) t).FillsWidth := by
      unfold textWidget
      rw [size?_eq_infinity fill]
      simp only [sized, Option.isNone_some, Bool.false_eq_true, false_and, if_false]
      exact .own (by simp [argOpt])
    simp [wide, Node.box, kind]
  · split
    · rename_i image
      simp [image, not_fillsWidth_imageWidget fill]
    · rename_i other
      split
      · have wide : (lineWidget none (.mk box children)).FillsWidth := by
          unfold lineWidget
          rw [size?_eq_infinity fill]
          exact .own (by simp [argOpt])
        simp [wide, other]
      · simp [fillsWidth_containerWidget fill, other]

end Dart

/-! ## Views -/

namespace Swift

/-- A root that fills the width has a frame that may be as wide as there is room. -/
theorem frame_mem_modifiers (names : Bool) {n : Node}
    (fill : n.box.layout.sizing.horizontal = .fill) :
    ∃ args, "maxWidth: .infinity" ∈ args ∧
      "frame(" ++ ", ".intercalate args ++ ")" ∈ (view names n).modifiers := by
  rcases n with ⟨box, children⟩
  have width : ∀ flexible, frameArgs flexible "width" "Width" box.layout.sizing.horizontal =
      ["maxWidth: .infinity"] := by
    intro flexible
    rw [show box.layout.sizing.horizontal = .fill from fill]
    rfl
  have frame : ∃ args, "maxWidth: .infinity" ∈ args ∧
      frame (.mk box children) = ["frame(" ++ ", ".intercalate args ++ ")"] := by
    unfold Swift.frame
    simp only [Node.box, width, List.singleton_append, List.isEmpty_cons, Bool.false_eq_true,
      if_false]
    exact ⟨_, by simp, rfl⟩
  obtain ⟨args, wide, framed⟩ := frame
  refine ⟨args, wide, ?_⟩
  rw [view]
  have own : "frame(" ++ ", ".intercalate args ++ ")" ∈ modifiers (.mk box children) := by
    simp [modifiers, framed]
  exact List.mem_append_right _ own

end Swift

/-! ## Elements -/

namespace Markup

variable {attributes : Attributes} {comments : Bool} {parent : Option Node} {n : Node}
  {forest : List Node}

/-- The element of a node among the elements of a forest. -/
theorem elementOf_mem (member : n ∈ forest) :
    elementOf attributes comments parent n ∈ elementsOf attributes comments parent forest := by
  induction forest with
  | nil => cases member
  | cons first rest ih =>
      rw [elementsOf]
      rcases List.mem_cons.mp member with rfl | later
      · exact List.mem_cons_self
      · exact List.mem_cons_of_mem _ (ih later)

/-- An element has all attributes of its node, and perhaps its address. -/
theorem attributes_subset_elementOf :
    attributes parent n ⊆ (elementOf attributes comments parent n).attributes := by
  rcases n with ⟨box, children⟩
  intro a own
  rw [elementOf]
  split
  · exact List.mem_cons_of_mem _ own
  · split <;> exact own

theorem mem_visitsOfList (member : n ∈ forest) : (parent, n) ∈ visitsOfList parent forest := by
  obtain ⟨before, after, rfl⟩ := List.append_of_mem member
  clear member
  induction before with
  | nil =>
      rcases n with ⟨box, children⟩
      rw [List.nil_append, visitsOfList, visitsOf]
      exact List.mem_append_left _ List.mem_cons_self
  | cons first before ih =>
      rw [List.cons_append, visitsOfList]
      exact List.mem_append_right _ ih

end Markup

/-- The element of a root in HTML. -/
def Html.rootElement (s : Settings) (root : Node) : Markup.Element :=
  Markup.elementOf (Html.attributes s) false none root

/-- The elements of a forest in Tailwind. -/
def Tailwind.elements (s : Settings) (forest : List Node) : List Markup.Element :=
  Markup.elementsOf (Tailwind.attributes s) s.showLayerNames none forest

/-- The element of a root in Tailwind. -/
def Tailwind.rootElement (s : Settings) (root : Node) : Markup.Element :=
  Markup.elementOf (Tailwind.attributes s) s.showLayerNames none root

/-- A root that fills the width has the class for it. -/
theorem Tailwind.full_mem_classes (rounding : Bool) {n : Node}
    (root : n.box.layout.placement = .root) (fill : n.box.layout.sizing.horizontal = .fill) :
    .named "w" "full" ∈ Tailwind.classes rounding none n := by
  have width : Tailwind.size rounding none n .horizontal = [.named "w" "full"] := by
    simp [Tailwind.size, Design.Sizing.along, fill, root, sizeStem]
  simp [Tailwind.classes, width]

theorem Tailwind.attributes_of_mem {t : Settings} {parent : Option Node} {n : Node} {u : Utility}
    (present : u ∈ Tailwind.classes t.roundTailwindValues parent n) :
    Tailwind.attributes t parent n =
      [.classes (Tailwind.names (Tailwind.classes t.roundTailwindValues parent n))] := by
  unfold Tailwind.attributes
  split
  · rename_i none
    rw [none] at present
    cases present
  · rfl

/-- A node with a declaration has an attribute for its style. -/
theorem Html.styleAttribute_of_mem {t : Settings} {parent : Option Node} {n : Node}
    {d : Css.Declaration} (present : d ∈ Css.declarations parent n) :
    Html.styleAttribute t parent n = [if t.inlineStyle then
      .style (Css.declarations parent n) else .classes [Html.className n]] := by
  unfold Html.styleAttribute
  split
  · rename_i none
    rw [none] at present
    cases present
  · rfl

/-- The declarations of a root are on its element or in the rule of its class. -/
theorem Html.carried_of_mem (t : Settings) {forest : List Node} {root : Node}
    {d : Css.Declaration} (member : root ∈ forest) (present : d ∈ Css.declarations none root) :
    if t.inlineStyle then
      .style (Css.declarations none root) ∈ (Html.rootElement t root).attributes
    else .classes [Html.className root] ∈ (Html.rootElement t root).attributes ∧
      ⟨Html.className root, Css.declarations none root⟩ ∈ Html.rules forest := by
  have carried : (if t.inlineStyle then .style (Css.declarations none root)
      else .classes [Html.className root]) ∈ (Html.rootElement t root).attributes := by
    refine Markup.attributes_subset_elementOf ?_
    rw [Html.attributes, Html.styleAttribute_of_mem present]
    exact List.mem_append_right _ List.mem_cons_self
  split
  · rename_i inline
    rwa [if_pos inline] at carried
  · rename_i classed
    rw [if_neg classed] at carried
    exact ⟨carried, List.mem_filterMap.mpr
      ⟨(none, root), Markup.mem_visitsOfList member, Html.rule?_of_mem present⟩⟩

/-! ## All targets -/

/-- How the code of a forest says that one of its roots fills the width. -/
structure FullWidth (t : Settings) (forest : List Node) (root : Node) : Prop where
  html : Html.rootElement t root ∈ Html.elements t forest
  /-- The declaration is on the element of the root or in the rule of its class. -/
  declared : ∃ declarations, ⟨"width", "100%"⟩ ∈ declarations ∧
    if t.inlineStyle then .style declarations ∈ (Html.rootElement t root).attributes
    else .classes [Html.className root] ∈ (Html.rootElement t root).attributes ∧
      ⟨Html.className root, declarations⟩ ∈ Html.rules forest
  tailwind : Tailwind.rootElement t root ∈ Tailwind.elements t forest
  named : ∃ names, .classes names ∈ (Tailwind.rootElement t root).attributes ∧ "w-full" ∈ names
  /-- Among the widgets an image is the exception. -/
  flutter : (Dart.widget t.showLayerNames none root).FillsWidth ↔ root.box.kind ≠ .image
  swiftUI : ∃ args, "maxWidth: .infinity" ∈ args ∧
    "frame(" ++ ", ".intercalate args ++ ")" ∈ (Swift.view t.showLayerNames root).modifiers

section

variable {s : Settings} {host : Option Scene.Node} {roots : List Scene.Node} {forest : List Node}

/-- The roots of a design are placed as roots. -/
theorem Design.placement_of_build (built : Design.build s host roots = .ok forest) :
    ∀ root ∈ forest, root.box.layout.placement = .root := by
  have follows := (coherent_of_build built).forall₂
  intro root member
  obtain ⟨i, bound, rfl⟩ := List.getElem_of_mem member
  have agrees := follows.get (follows.length_eq ▸ bound) bound
  exact agrees.root_iff.mpr rfl

/-- Of a root that fills the width every target says so, but for Flutter if it is an image. -/
theorem fullWidth_of_build (built : Design.build s host roots = .ok forest) (t : Settings) :
    ∀ root ∈ forest, root.box.layout.sizing.horizontal = .fill → FullWidth t forest root := by
  intro root member fill
  have placed := Design.placement_of_build built root member
  have formed := Design.wellFormed_of_mem_build built (Node.mem_preorderList_of_mem member)
  have declared := Css.width_mem_declarations placed fill
  have named := Tailwind.full_mem_classes t.roundTailwindValues placed fill
  constructor
  · exact Markup.elementOf_mem member
  · exact ⟨_, declared, Html.carried_of_mem t member declared⟩
  · exact Markup.elementOf_mem member
  · refine ⟨Tailwind.names (Tailwind.classes t.roundTailwindValues none root),
      Markup.attributes_subset_elementOf ?_, List.mem_map.mpr ⟨_, named, by decide⟩⟩
    rw [Tailwind.attributes_of_mem named]
    exact List.mem_singleton_self _
  · exact Dart.fillsWidth_widget_iff _ fill formed.box.text_iff.mp
  · exact Swift.frame_mem_modifiers _ fill

/-- A responsive text with a class for its style. -/
theorem fullWidth_of_build_text :
    let label : Scene.Node := .mk { nodeType := "TEXT", characters := "Hi", width := 8.0 } []
    let s := { Settings.defaults with responsiveRoot := true, inlineStyle := false }
    let forest := (Design.ofSelection s none [label] .empty).1
    Design.build s none [label] = .ok forest ∧
      ∀ root ∈ forest, root.box.layout.sizing.horizontal = .fill ∧ FullWidth s forest root := by
  intro label s forest
  have built : Design.build s none [label] = .ok forest := rfl
  refine ⟨built, fun root member => ?_⟩
  have fill : root.box.layout.sizing.horizontal = .fill := by
    rw [List.mem_singleton.mp member]
    rfl
  exact ⟨fill, fullWidth_of_build built s root member fill⟩

/-- A responsive image has no width in Flutter, not even below what is drawn around it. -/
theorem not_fillsWidth_photo :
    let fill : Scene.Paint := { paintType := .image, imageHash := some "a" }
    let photo : Scene.Node := .mk
      { id := "1:1", name := "Photo", nodeType := "RECTANGLE",
        width := 40.0, height := 20.0, fills := [fill] } []
    let s := { Settings.defaults with framework := .flutter, responsiveRoot := true }
    ∃ root, Design.build s none [photo] = .ok [root] ∧
      root.box.layout.sizing.horizontal = .fill ∧
      ¬(Dart.widget s.showLayerNames none root).FillsWidth := by
  intro fill photo s
  refine ⟨_, rfl, rfl, fun wide => ?_⟩
  exact (Dart.fillsWidth_widget_iff _ rfl (fun _ => by contradiction)).mp wide rfl

end

end Handoff
