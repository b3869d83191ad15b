import Handoff.Dart.Widget

/-!
The values that widgets are given.

Numbers, colors, decorations and styles are expressions as widgets are, so whatever is read off a
widget goes through them as well.  `Expr.IsValue` tells them apart: a value is raw text, a list
of values, or a call of one of the classes that are no widgets (`valueClasses`).  What is said
of a reading of values has to be said for these three cases only.

There is one lemma for each of the arguments that widgets are given.
-/

namespace Handoff.Dart

open Design (Box Node)
open Handoff.Dart.Expr (raw call list)

namespace Expr

/-- The classes that are called for values. -/
def valueClasses : List String :=
  ["Border.all", "BorderRadius.only", "BoxDecoration", "BoxShadow", "DecorationImage",
    "LinearGradient", "Shadow", "TextStyle"]

/-- Expressions in which there is no widget. -/
inductive IsValue : Expr → Prop
  | raw (text : String) : IsValue (raw text)
  | call {name : String} {args : List Arg} (isClass : name ∈ valueClasses)
      (values : ∀ a ∈ args, IsValue a.2) : IsValue (call name args)
  | list {items : List Expr} (values : ∀ e ∈ items, IsValue e) : IsValue (list items)

/-- Arguments all of which are values. -/
def AreValues (args : List Arg) : Prop :=
  ∀ a ∈ args, a.2.IsValue

/-- Whatever is there is a value. -/
def IsValue? (given : Option Expr) : Prop :=
  ∀ e, given = some e → e.IsValue

attribute [simp] IsValue.raw

@[simp] theorem isValue_call {name : String} {args : List Arg} :
    (call name args).IsValue ↔ name ∈ valueClasses ∧ AreValues args := by
  constructor
  · rintro ⟨⟩
    exact ⟨‹_›, ‹_›⟩
  · rintro ⟨isClass, values⟩
    exact .call isClass values

@[simp] theorem isValue_list {items : List Expr} :
    (list items).IsValue ↔ ∀ e ∈ items, e.IsValue := by
  constructor
  · rintro ⟨⟩
    assumption
  · exact .list

/-! ## Values that may be missing -/

@[simp] theorem isValue?_none : IsValue? none :=
  fun _ absent => nomatch absent

@[simp] theorem isValue?_some {e : Expr} : IsValue? (some e) ↔ e.IsValue := by
  constructor
  · exact fun value => value e rfl
  · rintro value _ ⟨⟩
    exact value

theorem isValue?_map {α : Type} {f : α → Expr} (values : ∀ a, (f a).IsValue)
    (given : Option α) : IsValue? (given.map f) := by
  intro e present
  obtain ⟨a, -, rfl⟩ := Option.map_eq_some_iff.mp present
  exact values a

theorem isValue_of_mem_filterMap {α : Type} {f : α → Option Expr}
    (values : ∀ a, IsValue? (f a)) (items : List α) : ∀ e ∈ items.filterMap f, e.IsValue := by
  intro e member
  obtain ⟨a, -, given⟩ := List.mem_filterMap.mp member
  exact values a e given

/-! ## Arguments -/

@[simp] theorem areValues_nil : AreValues [] :=
  fun _ member => nomatch member

@[simp] theorem areValues_append {first later : List Arg} :
    AreValues (first ++ later) ↔ AreValues first ∧ AreValues later :=
  List.forall_mem_append

@[simp] theorem areValues_arg {name : String} {e : Expr} :
    AreValues (arg name e) ↔ e.IsValue :=
  List.forall_mem_singleton

@[simp] theorem areValues_positional {e : Expr} : AreValues (positional e) ↔ e.IsValue :=
  List.forall_mem_singleton

@[simp] theorem areValues_argOpt {name : String} {given : Option Expr} :
    AreValues (argOpt name given) ↔ IsValue? given := by
  cases given with
  | none => simp [argOpt]
  | some e => exact areValues_arg.trans isValue?_some.symm

@[simp] theorem areValues_argIf {condition : Bool} {name : String} {e : Expr}
    (value : e.IsValue) : AreValues (argIf condition name e) := by
  unfold argIf
  split
  · exact areValues_arg.mpr value
  · exact areValues_nil

theorem areValues_argList (name : String) {items : List Expr}
    (values : ∀ e ∈ items, e.IsValue) : AreValues (argList name items) := by
  unfold argList
  split
  · exact areValues_nil
  · simpa using values

end Expr

open Handoff.Dart.Expr (IsValue IsValue? AreValues valueClasses isValue?_map areValues_argList
  isValue_of_mem_filterMap)

/-! ## Lengths and texts -/

@[simp] theorem isValue_number (v : Float) : (number v).IsValue := .raw _

@[simp] theorem isValue_offset (x y : Float) : (offset x y).IsValue := .raw _

@[simp] theorem isValue?_size (parent : Option Node) (n : Node) (axis : Design.Direction) :
    IsValue? (size? parent n axis) := by
  unfold size?
  split
  · simp
  · simp
  · split <;> simp

@[simp] theorem isValue?_padding (b : Box) : IsValue? (padding? b) := by
  unfold padding?
  split
  · split <;> simp [edgeInsets]
  · simp

@[simp] theorem areValues_textStyleArgs (t : Design.Typography) :
    AreValues (textStyleArgs t) := by
  have style : IsValue? (if t.italic then some (raw "FontStyle.italic") else none) := by
    split <;> simp
  have height : IsValue? (if t.size > 0.0 then
      t.lineHeight.map fun h => raw (Decimal.plain (h / t.size)) else none) := by
    split
    · exact isValue?_map (fun _ => .raw _) _
    · simp
  have spacing : IsValue? (if t.letterSpacing != 0.0 then some (number t.letterSpacing)
      else none) := by
    split <;> simp
  have decoration : IsValue? (textDecoration? t.decoration) := by
    cases t.decoration <;> simp [textDecoration?]
  simp [textStyleArgs, style, height, spacing, decoration, fontWeight]

@[simp] theorem isValue?_textShadow (effect : Design.Effect) :
    IsValue? (textShadow? effect) := by
  cases effect <;> simp [textShadow?, valueClasses]

@[simp] theorem isValue?_topColor (fills : List Design.Paint) : IsValue? (topColor? fills) := by
  unfold topColor?
  split <;> simp

@[simp] theorem isValue?_textAlign (align : Design.TextAlign) :
    IsValue? (textAlign? align) := by
  cases align <;> simp [textAlign?]

/-- The style of a text, with a color and shadows. -/
theorem isValue_textStyle (t : Design.Typography) (fills : List Design.Paint)
    (effects : List Design.Effect) :
    (call "TextStyle" (textStyleArgs t ++ argOpt "color" (topColor? fills) ++
      argList "shadows" (effects.filterMap textShadow?))).IsValue := by
  have shadows := areValues_argList "shadows"
    (isValue_of_mem_filterMap isValue?_textShadow effects)
  simp [valueClasses, shadows]

/-! ## Decorations -/

@[simp] theorem isValue?_borderRadius (r : Design.CornerRadius) :
    IsValue? (borderRadius? r) := by
  cases r <;> simp [borderRadius?, valueClasses, circular]

@[simp] theorem isValue_linearGradient (angle : Float) (stops : List Design.GradientStop) :
    (linearGradient angle stops).IsValue := by
  simp [linearGradient, valueClasses]

@[simp] theorem areValues_fillArg (b : Box) (fill : Design.Fill) :
    AreValues (fillArg b fill) := by
  cases fill with
  | solid c => simp [fillArg]
  | linearGradient angle stops => simp [fillArg]
  | image hash scaleMode => cases scaleMode <;> simp [fillArg, valueClasses]

@[simp] theorem areValues_fillArgs (b : Box) : AreValues (fillArgs b) := by
  unfold fillArgs
  split
  · split <;> simp [blendMode]
  · simp

@[simp] theorem areValues_borderArgs (b : Box) : AreValues (borderArgs b) := by
  unfold borderArgs
  split
  · rename_i stroke _ _ _
    cases stroke.align <;> simp [strokeAlign, valueClasses]
  · simp

@[simp] theorem areValues_shapeArgs (b : Box) : AreValues (shapeArgs b) := by
  unfold shapeArgs
  split <;> simp

theorem isValue?_boxShadow (effect : Design.Effect) : IsValue? (boxShadow? effect) := by
  cases effect <;> simp [boxShadow?, valueClasses]

@[simp] theorem isValue?_decoration (b : Box) : IsValue? (decoration? b) := by
  have shadows := areValues_argList "boxShadow"
    (isValue_of_mem_filterMap isValue?_boxShadow b.style.effects)
  unfold decoration?
  split
  · simp
  · simp [decorationArgs, valueClasses, shadows]

/-! ## Flows -/

@[simp] theorem isValue_wrapAlignment (distribution : Design.Distribution) :
    (wrapAlignment distribution).IsValue := by
  cases distribution <;> exact .raw _

@[simp] theorem isValue_wrapCrossAlignment (alignment : Design.Alignment) :
    (wrapCrossAlignment alignment).IsValue := by
  cases alignment <;> exact .raw _

@[simp] theorem isValue?_mainAxisAlignment (distribution : Design.Distribution) :
    IsValue? (mainAxisAlignment? distribution) := by
  cases distribution <;> simp [mainAxisAlignment?]

@[simp] theorem isValue?_crossAxisAlignment (alignment : Design.Alignment) :
    IsValue? (crossAxisAlignment? alignment) := by
  cases alignment <;> simp [crossAxisAlignment?]

end Handoff.Dart
