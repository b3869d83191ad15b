import Handoff.Proofs.Dart.Wording
import Handoff.Proofs.Opacity.Fading
import Handoff.Proofs.Opacity.Tally
import Handoff.Proofs.Opacity.Exchange
import Handoff.Proofs.Template.Scaffold

/-!
A fading fill in Flutter.

An expression is laid out in one way or the other as it is long or short, and either way it has the
same signs in it but for blanks and commas (`tally_render`).  So a widget differs by what an
expression in it differs (`shifts_widget`), and a fading color has one zero more: that of the
opacity after its name, or that in the digits of its alpha channel.

The main statement is `Dart.artifacts_fades`.
-/

namespace Handoff.Dart

open Design (Box Node Paint Fill ColorRef GradientStop layoutOf)
open Text (tally isBlank)
open Handoff.Dart.Expr (raw call list commented)

/-! ## Expressions -/

/-- The occurrences in the name of an argument. -/
def labelSigns (c : Char) : Option String → Nat
  | some name => tally c name + tally c ": "
  | none => 0

mutual

/-- The occurrences in an expression. -/
def signs (c : Char) : Expr → Nat
  | raw text => tally c text
  | commented comment inner => tally c "// " + tally c comment + signs c inner
  | list items => tally c "[" + listSigns c items + tally c "]"
  | call name args => tally c name + tally c "(" + argsSigns c args + tally c ")"

/-- The occurrences in items. -/
def listSigns (c : Char) : List Expr → Nat
  | [] => 0
  | item :: rest => signs c item + listSigns c rest

/-- The occurrences in arguments. -/
def argsSigns (c : Char) : List (Option String × Expr) → Nat
  | [] => 0
  | (name, value) :: rest => labelSigns c name + signs c value + argsSigns c rest

end

/-- The occurrences in an argument. -/
def argSigns (c : Char) (a : Arg) : Nat := labelSigns c a.1 + signs c a.2

section

variable {c : Char}

theorem listSigns_eq (items : List Expr) : listSigns c items = total (signs c) items := by
  induction items with
  | nil => rfl
  | cons item rest ih => rw [listSigns, ih, total, total, List.map_cons, List.sum_cons]

theorem argsSigns_eq (args : List Arg) : argsSigns c args = total (argSigns c) args := by
  induction args with
  | nil => rfl
  | cons a rest ih =>
      rw [argsSigns, ih, total, total, List.map_cons, List.sum_cons]
      rfl

section

variable (solid : isBlank c = false) (other : c ≠ ',')
include solid

/-- A line feed adds nothing to a text. -/
theorem tally_line (s : String) : tally c (s ++ "\n") = tally c s := by
  have feed : tally c "\n" = 0 := Text.tally_of_blank solid (by decide)
  rw [Text.tally_append, feed, Nat.add_zero]

include other

theorem tally_separator : tally c ", " = 0 ∧ tally c ",\n" = 0 := by
  have comma : tally c "," = 0 := Text.tally_eq_zero (mt List.mem_singleton.mp other)
  have blank : tally c " " = 0 := Text.tally_of_blank solid (by decide)
  have space : tally c ", " = tally c "," + tally c " " := Text.tally_append "," " "
  have line : tally c ",\n" = tally c "," := tally_line solid ","
  rw [space, line, comma, blank]
  exact ⟨rfl, rfl⟩

/-- Parts have their signs on one line and also on lines of their own. -/
theorem tally_laidOut {indent n : Nat} {opening closing text : String}
    {parts : Nat → List String} (each : ∀ margin, ((parts margin).map (tally c)).sum = n)
    (laid : LaidOut indent opening closing parts text) :
    tally c text = tally c opening + n + tally c closing := by
  cases laid with
  | line =>
      rw [Text.tally_append, Text.tally_append,
        Text.tally_intercalate (tally_separator solid other).1, each]
  | block =>
      have lines : ∀ parts : List String,
          tally c (block (indent + 2) parts) = (parts.map (tally c)).sum := by
        intro parts
        induction parts with
        | nil => rfl
        | cons part rest ih =>
            rw [block_cons, List.map_cons, List.sum_cons, ← ih]
            simp only [Text.tally_append, Text.tally_spaces solid, (tally_separator solid other).2]
            omega
      rw [Text.tally_append, Text.tally_append, Text.tally_append, tally_line solid,
        Text.tally_spaces solid, lines, each, Nat.add_zero]

end

mutual

/-- An expression has its signs wherever it stands. -/
theorem tally_render (solid : isBlank c = false) (other : c ≠ ',') (indent : Nat) :
    ∀ e : Expr, tally c (e.render indent) = signs c e
  | raw text => rfl
  | commented comment inner => by
      rw [Expr.render, signs]
      simp only [Text.tally_append, tally_line solid, Text.tally_spaces solid,
        tally_render solid other indent inner]
      omega
  | list items => by
      have laid := laidOut_list indent items
      rw [tally_laidOut solid other (fun margin => tally_items solid other margin items) laid, signs]
  | call name args => by
      have laid := laidOut_call indent name args
      rw [tally_laidOut solid other (fun margin => tally_args solid other margin args) laid, signs,
        Text.tally_append]

theorem tally_items (solid : isBlank c = false) (other : c ≠ ',') (margin : Nat) :
    ∀ items : List Expr,
      ((items.map (Expr.render margin)).map (tally c)).sum = listSigns c items
  | [] => rfl
  | item :: rest => by
      rw [List.map_cons, List.map_cons, List.sum_cons, tally_render solid other margin item,
        tally_items solid other margin rest, listSigns]

theorem tally_args (solid : isBlank c = false) (other : c ≠ ',') (margin : Nat) :
    ∀ args : List (Option String × Expr),
      ((args.map (argText margin)).map (tally c)).sum = argsSigns c args
  | [] => rfl
  | (none, value) :: rest => by
      rw [List.map_cons, List.map_cons, List.sum_cons, argText, tally_render solid other margin value,
        tally_args solid other margin rest, argsSigns, labelSigns, Nat.zero_add]
  | (some name, value) :: rest => by
      have own := tally_render solid other margin value
      rw [List.map_cons, List.map_cons, List.sum_cons, tally_args solid other margin rest, argsSigns,
        labelSigns]
      cases value with
      | commented comment inner =>
          rw [Expr.render] at own
          rw [argText]
          simp only [Text.tally_append, tally_line solid, Text.tally_spaces solid] at own ⊢
          omega
      | raw | list | call =>
          rw [argText, Text.tally_append, Text.tally_append, own]
          exact nofun

end

/-! ## Parts of expressions -/

theorem adds_call (name : String) : Adds (total (argSigns c)) (signs c) (call name) :=
  ⟨tally c name + tally c "(" + tally c ")", fun args => by
    rw [signs, argsSigns_eq]
    omega⟩

theorem adds_list : Adds (total (signs c)) (signs c) list :=
  ⟨tally c "[" + tally c "]", fun items => by
    rw [signs, listSigns_eq]
    omega⟩

theorem adds_commented (comment : String) : Adds (signs c) (signs c) (commented comment) :=
  ⟨tally c "// " + tally c comment, fun e => by rw [signs]⟩

/-- The value of an argument, in its place among the others. -/
theorem adds_arg (before after : List Arg) (name : String) :
    Adds (signs c) (total (argSigns c)) fun e => before ++ arg name e ++ after := by
  refine ⟨(before.map (argSigns c)).sum + labelSigns c (some name) + (after.map (argSigns c)).sum,
    fun e => ?_⟩
  simp only [arg, total, List.map_append, List.sum_append, List.map_cons, List.map_nil,
    List.sum_cons, List.sum_nil, argSigns]
  omega

/-- A call whose last argument is an expression. -/
theorem adds_last (name : String) (before : List Arg) (label : String) :
    Adds (signs c) (signs c) fun e => call name (before ++ arg label e) := by
  have whole := (adds_call name).comp (adds_arg (c := c) before [] label)
  simpa only [List.append_nil] using whole

theorem adds_self : Adds (signs c) (signs c) fun e => e :=
  adds_of_eq fun _ => rfl

theorem adds_withEffect (effect : Design.Effect) :
    Adds (signs c) (signs c) fun e => withEffect e effect := by
  cases effect with
  | layerBlur radius => exact adds_last "ImageFiltered" _ "child"
  | backgroundBlur radius =>
      exact (adds_last "ClipRect" [] "child").comp (adds_last "BackdropFilter" _ "child")
  | dropShadow | innerShadow => exact adds_self

theorem adds_effects (effects : List Design.Effect) :
    Adds (signs c) (signs c) fun e => effects.foldl withEffect e := by
  induction effects with
  | nil => exact adds_self
  | cons effect rest ih => exact ih.comp (adds_withEffect effect)

/-- What is put around a widget is the same whatever the widget is. -/
theorem adds_wrapped (names : Bool) (b : Box) : Adds (signs c) (signs c) (wrapped names b) := by
  have faint : Adds (signs c) (signs c) (withOpacity b.style.opacity) := by
    unfold withOpacity
    split
    · exact adds_last "Opacity" _ "child"
    · exact adds_self
  have turned : Adds (signs c) (signs c) (withRotation b.geometry.rotation) := by
    unfold withRotation
    split
    · exact adds_last "Transform.rotate" _ "child"
    · exact adds_self
  have named : Adds (signs c) (signs c) (withName names b.name) := by
    unfold withName
    split
    · exact adds_commented _
    · exact adds_self
  exact named.comp (turned.comp (faint.comp (adds_effects b.style.effects)))

theorem adds_placed (parent n : Node) : Adds (signs c) (signs c) (placed parent n) := by
  unfold placed
  split
  · exact adds_last "Positioned" _ "child"
  · split
    · exact adds_last "Expanded" [] "child"
    · exact adds_self
  · exact adds_self

theorem adds_stack (clips : Bool) : Adds (total (signs c)) (signs c) (stack clips) :=
  (adds_last "Stack" _ "children").comp adds_list

theorem adds_flowCall (f : Design.Flow) (hugs : Bool) :
    Adds (total (signs c)) (signs c) (flowCall f hugs) := by
  unfold flowCall
  split
  · exact (adds_last "Wrap" _ "children").comp adds_list
  · exact (adds_last _ _ "children").comp adds_list

end

/-! ## Widgets -/

section

variable {c : Char} {same : Prop} {more : Int} {P Q : Paint} {b : Box} {n m : Node}
  {parent parent' : Option Node}

theorem size?_congr (parents : layoutOf parent = layoutOf parent') (children children' : List Node)
    (axis : Design.Direction) :
    size? parent (.mk b children) axis = size? parent' (.mk b children') axis := by
  unfold size? expands
  rw [Design.flow?_layoutOf, Design.flow?_layoutOf, parents]
  rfl

/-- A widget looks at no more of the parent than its layout. -/
theorem widget_congr (parents : layoutOf parent = layoutOf parent') (names : Bool) (n : Node) :
    widget names parent n = widget names parent' n := by
  cases n with
  | mk b children =>
      rw [widget, widget]
      unfold base textWidget lineWidget containerWidget
      simp only [size?_congr parents children children]

theorem placedChildren_congr {n m : Node} (layout : m.box.layout = n.box.layout) (names : Bool)
    (children : List Node) : placedChildren names m children = placedChildren names n children := by
  have layouts : layoutOf (some m) = layoutOf (some n) := congrArg some layout
  rw [placedChildren_eq_map, placedChildren_eq_map]
  refine List.map_congr_left fun child _ => ?_
  unfold placed
  rw [layout, widget_congr layouts]

/-- The widgets of children differ by one of them. -/
theorem shifts_childrenWidget? {e e' : Expr} (layout : m.box.layout = n.box.layout)
    (inner : Shifts same more (signs c) e e') (b : Box) (before after : List (Node × Expr)) :
    ∃ w w', childrenWidget? b (before ++ (n, e) :: after) = some w ∧
      childrenWidget? b (before ++ (m, e') :: after) = some w' ∧
        Shifts same more (signs c) w w' := by
  have some (x : Node × Expr) : (before ++ x :: after).isEmpty = false := by simp
  unfold childrenWidget?
  simp only [some, Bool.false_eq_true, if_false, Design.placedAs_middle, layout]
  cases b.layout.mode with
  | absolute =>
      refine ⟨_, _, rfl, rfl, ?_⟩
      simp only [List.map_append, List.map_cons]
      exact inner.around ((adds_stack _).comp (adds_inList _ _))
  | flow f =>
      dsimp only
      cases n.box.layout.placement.isAbsolute with
      | false =>
          -- The child is in the line, which is alone or under those that are placed.
          have items := inner.around
            (adds_inList (Node.placedAs false before) (Node.placedAs false after))
          have line := items.around (adds_flowCall f (b.layout.sizing.along f.direction).isHug)
          simp only [beq_self_eq_true, if_true, Bool.false_beq, Bool.not_true, Bool.false_eq_true,
            if_false, List.append_nil, List.append_assoc, List.singleton_append]
          split
          · exact ⟨_, _, rfl, rfl, line⟩
          · exact ⟨_, _, rfl, rfl, line.around ((adds_stack false).comp (adds_inList [] _))⟩
      | true =>
          simp only [beq_self_eq_true, if_true, Bool.true_beq, Bool.false_eq_true, if_false,
            List.append_nil, List.append_assoc, List.singleton_append]
          split
          · rename_i none
            exact absurd none (by simp)
          · split
            · rename_i none
              exact absurd none (by simp)
            · refine ⟨_, _, rfl, rfl, ?_⟩
              exact inner.around ((adds_stack false).comp (adds_inList (_ :: _) _))

/-- The widget of a container differs by that of its children. -/
theorem shifts_containerWidget {children children' : List Node}
    {placed placed' : List (Node × Expr)} {w w' : Expr}
    (parents : layoutOf parent = layoutOf parent')
    (first : childrenWidget? b placed = some w) (second : childrenWidget? b placed' = some w')
    (inner : Shifts same more (signs c) w w') :
    Shifts same more (signs c) (containerWidget parent (.mk b children) placed)
      (containerWidget parent' (.mk b children') placed') := by
  unfold containerWidget
  simp only [Node.box, size?_congr parents children children', first, second]
  split
  · split
    · exact inner.around ((adds_last "ClipRect" [] "child").comp (adds_last "SizedBox" _ "child"))
    · exact inner.around (adds_last "SizedBox" _ "child")
  · exact inner.around (adds_last "Container" _ "child")

/-- The arguments of a decoration after the fill. -/
def laterArgs (b : Box) (mode : Design.BlendMode) : List Arg :=
  (if mode = .normal then [] else arg "backgroundBlendMode" (blendMode mode)) ++ borderArgs b ++
    shapeArgs b ++ argList "boxShadow" (b.style.effects.filterMap boxShadow?)

/-- The fill of a container is the first thing in its decoration. -/
theorem decoration?_withFill (b : Box) (P : Paint) : decoration? (b.withFill P) =
    some (call "BoxDecoration" (fillArg b P.fill ++ laterArgs b P.blendMode)) := by
  have args : decorationArgs (b.withFill P) =
      fillArg b P.fill ++ laterArgs b P.blendMode := by
    have fill : fillArgs (b.withFill P) = fillArg b P.fill ++
        (if P.blendMode = .normal then []
          else arg "backgroundBlendMode" (blendMode P.blendMode)) := rfl
    rw [decorationArgs, fill, laterArgs]
    simp only [List.append_assoc]
    rfl
  have filled : fillArg b P.fill ≠ [] := by
    cases P.fill <;> exact List.cons_ne_nil _ _
  unfold decoration?
  rw [args, if_neg]
  simp [filled]

/-- The widget of a container has its fill in a place of its own. -/
theorem exists_containerWidget (parent : Option Node) (b : Box) (children : List Node)
    (placed : List (Node × Expr)) (mode : Design.BlendMode) : ∃ f : List Arg → Expr,
      Adds (total (argSigns c)) (signs c) f ∧ ∀ {P : Paint}, P.blendMode = mode →
        containerWidget parent (.mk (b.withFill P) children) placed = f (fillArg b P.fill) := by
  let before := argOpt "width" (size? parent (.mk b children) .horizontal) ++
    argOpt "height" (size? parent (.mk b children) .vertical) ++
      argOpt "padding" (padding? b) ++
        argIf b.style.clipsContent "clipBehavior" (raw "Clip.antiAlias")
  let after := argOpt "child" (childrenWidget? b placed)
  refine ⟨fun args => call "Container" (before ++ arg "decoration" (call "BoxDecoration"
    (args ++ laterArgs b mode)) ++ after), ?_, fun {P} own => ?_⟩
  · have args : Adds (total (argSigns c)) (total (argSigns c)) fun args =>
        args ++ laterArgs b mode := adds_between [] _
    exact (adds_call "Container").comp ((adds_arg before after "decoration").comp
      ((adds_call "BoxDecoration").comp args))
  · have padding : padding? (b.withFill P) = padding? b := rfl
    have clips : (b.withFill P).style.clipsContent = b.style.clipsContent := rfl
    unfold containerWidget
    simp only [Node.box, decoration?_withFill, padding, own, clips, Option.isSome_some,
      Bool.and_true]
    rfl

theorem base_container (container : b.IsContainer) (parent : Option Node) (children : List Node)
    (placed : List (Node × Expr)) :
    base parent (.mk b children) placed = containerWidget parent (.mk b children) placed := by
  obtain ⟨image, -, line⟩ := container.kind_ne
  unfold base
  simp only [Node.box, container.text, image, line, if_false, Bool.false_eq_true]

/-- The widget of a node differs by the fill of one node in it. -/
theorem shifts_widget (names : Bool) (mode : Q.blendMode = P.blendMode)
    (fill : ∀ b, Shifts same more (total (argSigns c)) (fillArg b P.fill) (fillArg b Q.fill))
    (changed : n.Exchanged P Q m) : ∀ {parent parent' : Option Node},
      layoutOf parent = layoutOf parent' →
        Shifts same more (signs c) (widget names parent n) (widget names parent' m) := by
  induction changed with
  | @own b children container =>
      intro parent parent' parents
      have first := container.withFill P
      have second := container.withFill Q
      have placed := @placedChildren_congr (.mk (b.withFill P) children)
        (.mk (b.withFill Q) children) rfl names children
      obtain ⟨f, adds, own⟩ := exists_containerWidget (c := c) parent' b children
        (placedChildren names (.mk (b.withFill P) children) children) P.blendMode
      rw [widget_congr parents, widget, widget, placed, base_container first,
        base_container second, own rfl, own mode]
      exact (fill b).around ((adds_wrapped names b).comp adds)
  | @inside b before after n m container changed ih =>
      intro parent parent' parents
      have below (children : List Node) :
          placedChildren names (.mk b (before ++ m :: after)) children =
            placedChildren names (.mk b (before ++ n :: after)) children :=
        placedChildren_congr (by rfl) names children
      have own : Shifts same more (signs c)
          (widget names (some (.mk b (before ++ n :: after))) n)
          (widget names (some (.mk b (before ++ n :: after))) m) := ih rfl
      have inner := own.around (adds_placed (.mk b (before ++ n :: after)) n)
      have same : placed (.mk b (before ++ n :: after)) m =
          placed (.mk b (before ++ n :: after)) n := by
        unfold placed
        rw [changed.layout]
      obtain ⟨w, w', first, second, shifts⟩ := shifts_childrenWidget? changed.layout inner b
        (placedChildren names (.mk b (before ++ n :: after)) before)
        (placedChildren names (.mk b (before ++ n :: after)) after)
      rw [widget, widget, base_container container, base_container container, below]
      refine (shifts_containerWidget parents ?_ ?_ shifts).around (adds_wrapped names b)
      · rw [← first, placedChildren_eq_map, placedChildren_eq_map, placedChildren_eq_map,
          List.map_append, List.map_cons]
      · rw [← second, placedChildren_eq_map, placedChildren_eq_map, placedChildren_eq_map,
          List.map_append, List.map_cons, same]

end

/-! ## Colors -/

section

variable {c d : ColorRef} {P Q : Paint} {stops stops' : List GradientStop}

/-- A fading color gets a zero: in its opacity, or in the digits of its alpha channel. -/
theorem tally_color_fades (fades : c.Fades d) :
    tally '0' (color d) = tally '0' (color c) + 1 := by
  have half : d.color.a = 0.5 := by rw [fades.half]
  have alpha : Color.byte 1.0 = 255 ∧ Color.byte 0.5 = 128 := by decide +kernel
  unfold color
  rw [fades.palette]
  split
  · have signs : tally '0' ".withOpacity(" = 0 ∧ tally '0' "0.5" = 1 ∧ tally '0' ")" = 0 := by
      decide
    rw [if_pos (Color.isOpaque_of_full fades.full), if_neg (by
      rw [Color.not_isOpaque_of_half half]
      exact Bool.false_ne_true), half, Decimal.plain_half]
    simp only [Text.tally_append, signs]
  · have first : c.color.bytes = { c.color.bytes with a := 255 } := by
      rw [Color.bytes, fades.full, alpha.1]
    have second : d.color.bytes = { c.color.bytes with a := 128 } := by
      rw [Color.bytes, half, alpha.2, fades.half]
      rfl
    have digits (r g b : Nat) : tally '0' (upperHex [128, r, g, b]) =
        tally '0' (upperHex [255, r, g, b]) + 1 := by
      have pairs : ((Text.hexPair 128).map Char.toUpper).count '0' = 1 ∧
          ((Text.hexPair 255).map Char.toUpper).count '0' = 0 := by decide
      simp only [upperHex, Text.tally_ofList, List.flatMap_cons, List.map_append,
        List.count_append, pairs]
      omega
    rw [first, second]
    simp only [Text.tally_append, digits]
    omega

/-- Every color of a fading gradient gets a zero. -/
theorem signs_linearGradient_fades (angle : Float)
    (each : List.Forall₂ GradientStop.Fades stops stops') :
    signs '0' (linearGradient angle stops') =
      signs '0' (linearGradient angle stops) + stops.length := by
  have positions : stops'.map (fun s => number s.position) =
      stops.map fun s => number s.position := by
    induction each with
    | nil => rfl
    | cons fades _ ih => rw [List.map_cons, List.map_cons, ih, fades.position]
  have colors : total (signs '0') (stops'.map fun s => raw (color s.color)) =
      total (signs '0') (stops.map fun s => raw (color s.color)) + stops.length := by
    induction each with
    | nil => rfl
    | cons fades _ ih =>
        simp only [List.map_cons, List.cons.injEq] at positions
        have later := ih positions.2
        simp only [total, List.map_cons, List.sum_cons, signs, tally_color_fades fades.color,
          List.length_cons] at later ⊢
        omega
  obtain ⟨rest, adds⟩ := (adds_call (c := '0') "LinearGradient").comp
    ((adds_arg (arg "begin" (raw (alignment (unsignedZero (-(edgePoint angle).1))
        (unsignedZero (-(edgePoint angle).2)))) ++
      arg "end" (raw (alignment (edgePoint angle).1 (edgePoint angle).2)))
      (arg "stops" (list (stops.map fun s => number s.position))) "colors").comp adds_list)
  have first := adds (stops.map fun s => raw (color s.color))
  have second := adds (stops'.map fun s => raw (color s.color))
  unfold linearGradient
  simp only [positions]
  rw [first, second, colors]
  omega

/-- Zeros tell whether a fill fades, unless it is an image. -/
theorem exists_shifts_fillArg (fades : P.Fades Q) : ∃ more : Int,
    (more = 0 → P.fill.isImage = true) ∧ ∀ b : Box, Shifts (P.fill.isImage = true) more
      (total (argSigns '0')) (fillArg b P.fill) (fillArg b Q.fill) := by
  obtain ⟨fill, opacity, mode⟩ := P
  obtain ⟨fill', opacity', mode'⟩ := Q
  obtain ⟨changed, -⟩ := fades
  cases changed with
  | @solid c d color =>
      refine ⟨1, by omega, fun b => ⟨fun image => (by cases image), ?_⟩⟩
      simp only [fillArg, arg, total, List.map_cons, List.map_nil, List.sum_cons, List.sum_nil,
        argSigns, signs, tally_color_fades color]
      omega
  | @linearGradient angle stops stops' some each =>
      have length := List.length_pos_iff.mpr some
      refine ⟨stops.length, by omega, fun b => ⟨fun image => (by cases image), ?_⟩⟩
      simp only [fillArg, arg, total, List.map_cons, List.map_nil, List.sum_cons, List.sum_nil,
        argSigns, signs_linearGradient_fades angle each]
      omega
  | image => exact ⟨0, fun _ => rfl, fun b => .refl _ _ _⟩

end

/-! ## Code -/

section

variable {same : Prop} {more : Int} {P Q : Paint} {n m : Node} {forest forest' : List Node}

theorem listBlurs_append (before after : List Node) :
    listBlurs (before ++ after) = (listBlurs before || listBlurs after) := by
  induction before with
  | nil => rfl
  | cons n rest ih => rw [List.cons_append, listBlurs, listBlurs, ih, Bool.or_assoc]

theorem blurs_exchanged (changed : n.Exchanged P Q m) : blurs m = blurs n := by
  induction changed with
  | own => rfl
  | inside container changed ih =>
      simp only [blurs, listBlurs_append, listBlurs, ih]

theorem listWarnings_append (before after : List Node) :
    listWarnings (before ++ after) = listWarnings before ++ listWarnings after := by
  induction before with
  | nil => rfl
  | cons n rest ih => rw [List.cons_append, listWarnings, listWarnings, ih, List.append_assoc]

theorem warnings_exchanged (changed : n.Exchanged P Q m) : warnings m = warnings n := by
  induction changed with
  | @own b children container =>
      have omissions (R : Paint) : contentOmissions (b.withFill R) =
          if isLeaf b then [] else decorationOmissions (b.withFill R) := by
        have text : (b.withFill R).style.text = none := container.text
        unfold contentOmissions
        rw [text]
        rfl
      rw [warnings, warnings, omissions, omissions]
      rfl
  | inside container changed ih =>
      simp only [warnings, listWarnings_append, listWarnings, ih]

/-- Nothing more and nothing less is missing after a fill is exchanged. -/
theorem listWarnings_exchanged (changed : InOnePlace (Node.Exchanged P Q) forest forest') :
    listWarnings forest = listWarnings forest' := by
  obtain ⟨before, n, m, after, rfl, rfl, changed⟩ := changed
  simp only [listWarnings_append, listWarnings, warnings_exchanged changed]

variable {c : Char}

/-- Roots in a column, unless there is only one. -/
theorem shifts_forestWidget {names : Bool} {before after : List Node}
    (own : Shifts same more (signs c) (widget names none n) (widget names none m)) :
    Shifts same more (signs c) (forestWidget names (before ++ n :: after))
      (forestWidget names (before ++ m :: after)) := by
  unfold forestWidget
  rw [List.map_append, List.map_append, List.map_cons, List.map_cons]
  generalize before.map (widget names none) = left
  generalize after.map (widget names none) = right
  have column := own.around ((adds_last "Column" (arg "crossAxisAlignment"
    (raw "CrossAxisAlignment.start")) "children").comp (adds_list.comp (adds_inList left right)))
  cases left with
  | nil =>
      cases right with
      | nil => exact own
      | cons e rest => exact column
  | cons first others => cases others <;> exact column

/-- The code differs by the widget of one of the roots. -/
theorem shifts_code (s : Settings) (solid : isBlank c = false) (other : c ≠ ',')
    (changed : InOnePlace (Node.Exchanged P Q) forest forest')
    (own : ∀ {n m : Node}, n.Exchanged P Q m → Shifts same more (signs c)
      (widget s.showLayerNames none n) (widget s.showLayerNames none m)) :
    Shifts same more (tally c) (code s forest) (code s forest') := by
  have render (indent : Nat) : Adds (signs c) (tally c) (Expr.render indent) :=
    adds_of_eq (tally_render solid other indent)
  have types := Design.typeNames_exchanged changed
  obtain ⟨before, n, m, after, rfl, rfl, changed⟩ := changed
  unfold code
  split
  · exact (shifts_forestWidget (own changed)).around (render 0)
  · have blurs : listBlurs (before ++ m :: after) = listBlurs (before ++ n :: after) := by
      simp only [listBlurs_append, listBlurs, blurs_exchanged changed]
    have classes (name : String) : Adds (tally c) (tally c) (widgetClass name) :=
      Text.adds_enclose _ _
    have short : (before.map fun n => (widget s.showLayerNames none n).render 4).length <
        (Design.typeNames (before ++ n :: after)).length := by
      rw [Design.length_typeNames]
      simp
    unfold app
    simp only [types, blurs, List.map_append, List.map_cons]
    have bodies := (adds_zipWith classes
      (after.map fun n => (widget s.showLayerNames none n).render 4) short).comp (render 4)
    exact (((own changed).around bodies).around Text.adds_join).around (Text.adds_front _)

/-- What the target makes of a design changes when an opaque fill fades, unless it is an image. -/
theorem artifacts_fades (fades : P.Fades Q) (s : Settings)
    (changed : InOnePlace (Node.Exchanged P Q) forest forest') :
    artifacts s forest = artifacts s forest' ↔ P.fill.isImage = true := by
  obtain ⟨more, seen, fill⟩ := exists_shifts_fillArg fades
  have code := shifts_code s (by decide) (by decide) changed fun changed =>
    shifts_widget s.showLayerNames fades.blendMode fill changed rfl
  unfold artifacts
  simpa using code.eq_iff seen

end

end Handoff.Dart
