import Handoff.Proofs.Dart.Layout
import Handoff.Proofs.Dart.Wording

/-!
The texts that are copied into the code of a widget.

All of them `Opens` a line: they have no line break, and where a line starts with one of them it
starts neither with a space nor with a closing bracket nor with the word for a constant.  Texts of
users are in literals or in comments, so what a user writes is no exception; the comments are there
only if layers are named (`neat_widget`).
-/

namespace Handoff.Dart

open Design (Box Node ColorRef)
open Handoff.Dart.Expr (raw call list commented Over Over? ArgsOver over_raw over_call over_list
  over?_none over?_some over?_map argsOver_nil argsOver_append argsOver_arg argsOver_argOpt
  argsOver_positional)
open Text (Within OneLine oneLine_append isWordChar isDenseChar)

/-! ## Texts that open a line -/

/-- What stands before the use of a class without data. -/
def keyword : String := "const "

/-- A text that can be at the start of a line, and is not taken for layout or for a constant. -/
def Opens (text : String) : Prop :=
  Inert text ∧ ¬ keyword.toList <+: text.toList

/-- A text that opens a line whatever stands behind it. -/
def Leads (text : String) : Prop := Opens text ∧ ¬ text.toList <+: keyword.toList

instance (text : String) : Decidable (Opens text) :=
  inferInstanceAs (Decidable ((OneLine text ∧ Begins text) ∧ ¬ keyword.toList <+: text.toList))

instance (text : String) : Decidable (Leads text) :=
  inferInstanceAs (Decidable (Opens text ∧ ¬ text.toList <+: keyword.toList))

variable {front back text name comment : String}

theorem Leads.append (leads : Leads front) (single : OneLine back) : Leads (front ++ back) := by
  obtain ⟨⟨⟨line, begins⟩, other⟩, long⟩ := leads
  refine ⟨⟨⟨oneLine_append.mpr ⟨line, single⟩, fun c first => ?_⟩, fun constant => ?_⟩,
    fun short => ?_⟩
  · rw [String.toList_append, List.head?_append] at first
    cases start : front.toList.head? with
    | none =>
        rw [List.head?_eq_none_iff.mp start] at long
        exact absurd List.nil_prefix long
    | some d =>
        rw [start] at first
        cases first
        exact begins c start
  · rw [String.toList_append] at constant
    rcases List.prefix_or_prefix_of_prefix constant (List.prefix_append _ back.toList) with
      whole | part
    · exact other whole
    · exact long part
  · rw [String.toList_append] at short
    exact long ((List.prefix_append _ _).trans short)

/-- A text without spaces opens a line unless it starts with a closing bracket. -/
theorem opens_of_dense (dense : Within isDenseChar text) (begins : Begins text) : Opens text := by
  refine ⟨⟨dense.not_mem (by decide), begins⟩, fun constant => ?_⟩
  have space : ' ' ∈ text.toList := constant.subset (by decide)
  exact dense.not_mem (by decide) space

theorem opens_of_word (word : Within isWordChar text) : Opens text := by
  refine opens_of_dense word.dense fun c first => ?_
  have own := word c (List.mem_of_mem_head? first)
  constructor
  · rintro rfl
    exact absurd own (by decide)
  · refine Bool.eq_false_iff.mpr fun closing => ?_
    simp only [isClosing, Bool.or_eq_true, beq_iff_eq] at closing
    rcases closing with rfl | rfl <;> exact absurd own (by decide)

/-! ## Expressions -/

/-- All texts that are copied open a line, and there are comments, each of one line, only if layers
are named. -/
abbrev Expr.Neat (names : Bool) : Expr → Prop :=
  Over (fun comment => names = true ∧ OneLine comment) Opens

/-- Arguments that are neat, and so are their names. -/
abbrev NeatArgs (names : Bool) : List Arg → Prop :=
  ArgsOver (fun comment => names = true ∧ OneLine comment) Opens

/-- Whatever is there is neat. -/
abbrev Neat? (names : Bool) : Option Expr → Prop :=
  Over? (fun comment => names = true ∧ OneLine comment) Opens

section

variable {names : Bool} {e : Expr} {args first later : List Arg} {items : List Expr}
  {given : Option Expr}

@[simp] theorem argsOver_argIf {comments texts : String → Prop} (own : texts name)
    (condition : Bool) : ArgsOver comments texts (argIf condition name e) ↔
      (condition = true → e.Over comments texts) := by
  cases condition <;> simp [argIf, own]

@[simp] theorem argsOver_argList {comments texts : String → Prop} (own : texts name) :
    ArgsOver comments texts (argList name items) ↔ ∀ e ∈ items, e.Over comments texts := by
  cases items <;> simp [argList, own]

/-! ## Values -/

theorem leads_literal (s : String) : Leads (literal s) :=
  (Leads.append (by decide) (Text.oneLine_dart s)).append (by decide)

theorem opens_pointed (v : Float) : Opens (Decimal.pointed v) :=
  opens_of_word (Decimal.within_pointed v)

theorem neat_number (v : Float) : (number v).Neat names :=
  over_raw.mpr (opens_pointed v)

theorem opens_color {c : ColorRef} (named : c.Named) : Opens (color c) := by
  unfold color
  split
  · rename_i p called
    have word := named p called
    split
    · exact opens_of_word word
    · have point : ".withOpacity(" = String.singleton '.' ++ "withOpacity(" := rfl
      have dense : Within isDenseChar (p.name ++ ".withOpacity(" ++
          Decimal.plain (Decimal.widen c.color.a) ++ ")") := by
        simp only [Text.within_append, word.dense, (Decimal.within_plain _).dense, true_and,
          and_true]
        decide
      refine opens_of_dense dense ?_
      rw [point]
      simp only [← String.append_assoc]
      rw [String.append_assoc, String.append_assoc]
      exact begins_append (opens_of_word word).1.2 (by decide) rfl
  · have digits : OneLine (upperHex [c.color.bytes.a, c.color.bytes.r, c.color.bytes.g,
        c.color.bytes.b]) := (within_channels c.color).not_mem (by decide)
    exact ((Leads.append (by decide) digits).append (by decide)).1

theorem neat_color {c : ColorRef} (named : c.Named) : (raw (color c)).Neat names :=
  over_raw.mpr (opens_color named)

theorem opens_alignment (x y : Float) : Opens (alignment x y) := by
  have table : ∀ entry ∈ alignmentNames, OneLine entry.2 := by decide
  have plain := Decimal.oneLine_plain
  unfold alignment
  dsimp only
  split
  · rename_i name found
    split at found
    · obtain ⟨before, after, listed, -⟩ := List.lookup_eq_some_iff.mp found
      have member : (_, name) ∈ alignmentNames :=
        listed ▸ List.mem_append_right before List.mem_cons_self
      exact (Leads.append (by decide) (table _ member)).1
    · cases found
  · exact ((((Leads.append (by decide) (plain x)).append (by decide)).append (plain y)).append
      (by decide)).1

theorem neat_linearGradient {angle : Float} {stops : List Design.GradientStop}
    (named : ∀ s ∈ stops, s.color.Named) : (linearGradient angle stops).Neat names := by
  have colors : ∀ e ∈ stops.map fun s => raw (color s.color), e.Neat names :=
    List.forall_mem_map.mpr fun s member => neat_color (named s member)
  have positions : ∀ e ∈ stops.map fun s => number s.position, e.Neat names :=
    List.forall_mem_map.mpr fun s _ => neat_number s.position
  unfold linearGradient
  simp (disch := decide) only [over_call, argsOver_append, argsOver_arg, over_raw, over_list,
    opens_alignment, true_and]
  exact ⟨colors, positions⟩

theorem neat_circular (r : Float) : (circular r).Neat names :=
  over_raw.mpr ((Leads.append (by decide) (Decimal.oneLine_pointed r)).append (by decide)).1

theorem neat?_borderRadius (radius : Design.CornerRadius) : Neat? names (borderRadius? radius) := by
  cases radius with
  | none => exact over?_none
  | uniform r =>
      exact over?_some.mpr (over_raw.mpr
        ((Leads.append (by decide) (Decimal.oneLine_pointed r)).append (by decide)).1)
  | perCorner tl tr br bl =>
      unfold borderRadius?
      simp (disch := decide) only [over?_some, over_call, argsOver_append, argsOver_arg,
        neat_circular, and_self]

theorem neat_edgeInsets (p : Design.Padding) : (edgeInsets p).Neat names := by
  have pointed := Decimal.oneLine_pointed
  have comma : OneLine ", vertical: " ∧ OneLine ", top: " ∧ OneLine ", right: " ∧
      OneLine ", bottom: " ∧ OneLine ")" := by decide
  obtain ⟨vertical, top, right, bottom, bracket⟩ := comma
  unfold edgeInsets
  refine over_raw.mpr ?_
  split
  · exact ((Leads.append (by decide) (pointed _)).append bracket).1
  · split
    · exact ((((Leads.append (by decide) (pointed _)).append vertical).append (pointed _)).append
        bracket).1
    · exact ((((((((Leads.append (by decide) (pointed _)).append top).append (pointed _)).append
        right).append (pointed _)).append bottom).append (pointed _)).append bracket).1

theorem neat_offset (x y : Float) : (offset x y).Neat names := by
  have pointed := Decimal.oneLine_pointed
  exact over_raw.mpr ((((Leads.append (by decide) (pointed x)).append (by decide)).append
    (pointed y)).append (by decide)).1

theorem neat_blurFilter (radius : Float) : (blurFilter radius).Neat names := by
  have sigma := Decimal.oneLine_pointed (radius / 2.0)
  exact over_raw.mpr ((((Leads.append (by decide) sigma).append (by decide)).append sigma).append
    (by decide)).1

theorem neat_blendMode (m : Design.BlendMode) : (blendMode m).Neat names :=
  over_raw.mpr (Leads.append (by decide) (Text.isName_camel (isSnake_blendMode m)).oneLine).1

theorem neat_fontWeight (weight : Nat) : (fontWeight weight).Neat names :=
  over_raw.mpr (Leads.append (by decide) (Text.oneLine_repr _)).1

theorem neatArgs_textStyleArgs (t : Design.Typography) : NeatArgs names (textStyleArgs t) := by
  have italic : Neat? names (if t.italic then some (raw "FontStyle.italic") else none) := by
    split
    · exact over?_some.mpr (over_raw.mpr (by decide))
    · exact over?_none
  have height : Neat? names (if t.size > 0.0 then
      t.lineHeight.map fun h => raw (Decimal.plain (h / t.size)) else none) := by
    split
    · exact over?_map (fun _ => over_raw.mpr (opens_of_word (Decimal.within_plain _))) _
    · exact over?_none
  have spacing : Neat? names (if t.letterSpacing != 0.0 then some (number t.letterSpacing)
      else none) := by
    split
    · exact over?_some.mpr (neat_number _)
    · exact over?_none
  have decoration : Neat? names (textDecoration? t.decoration) := by
    cases t.decoration with
    | none => exact over?_none
    | underline | strikethrough => exact over?_some.mpr (over_raw.mpr (by decide))
  simp (disch := decide) only [textStyleArgs, argsOver_append, argsOver_arg, argsOver_argOpt,
    over_raw, (leads_literal _).1, neat_number, neat_fontWeight, italic, height, spacing, decoration,
    and_self]

/-! ## Leaves -/

variable {n : Node} {parent : Option Node} {b : Box}

theorem neat?_size (axis : Design.Direction) : Neat? names (size? parent n axis) := by
  unfold size?
  split
  · exact over?_some.mpr (neat_number _)
  · exact over?_none
  · split
    · exact over?_none
    · exact over?_some.mpr (over_raw.mpr (by decide))

theorem neat?_topColor (named : b.Named) : Neat? names (topColor? b.style.fills) := by
  unfold topColor?
  split
  · rename_i c top
    exact over?_some.mpr (neat_color (named.lastFill top).color)
  · exact over?_none

theorem neat_textShadows (named : b.Named) :
    ∀ e ∈ b.style.effects.filterMap textShadow?, e.Neat names := by
  intro e member
  obtain ⟨effect, among, made⟩ := List.mem_filterMap.mp member
  cases effect with
  | dropShadow s =>
      cases made
      have color : (raw (color s.color)).Neat names := neat_color (named.effect among rfl)
      simp (disch := decide) only [over_call, argsOver_append, argsOver_arg, color, neat_offset,
        neat_number, and_self]
  | innerShadow | layerBlur | backgroundBlur => cases made

theorem neat_boxShadows (named : b.Named) :
    ∀ e ∈ b.style.effects.filterMap boxShadow?, e.Neat names := by
  intro e member
  obtain ⟨effect, among, made⟩ := List.mem_filterMap.mp member
  cases effect with
  | dropShadow s =>
      cases made
      have color : (raw (color s.color)).Neat names := neat_color (named.effect among rfl)
      simp (disch := decide) only [over_call, argsOver_append, argsOver_arg, color, neat_offset,
        neat_number, and_self]
  | innerShadow | layerBlur | backgroundBlur => cases made

theorem neat_textWidget (named : n.box.Named) (t : Design.TextStyle) :
    (textWidget parent n t).Neat names := by
  have aligned : Neat? names (textAlign? t.typography.align) := by
    cases t.typography.align with
    | left => exact over?_none
    | center | right | justified => exact over?_some.mpr (over_raw.mpr (by decide))
  unfold textWidget sized
  dsimp only
  split <;>
    simp (disch := decide) only [over_call, argsOver_append, argsOver_arg, argsOver_argOpt,
      argsOver_argList, argsOver_positional, over_raw, (leads_literal _).1, neat?_size,
      neatArgs_textStyleArgs, neat?_topColor named, aligned, true_and, and_true] <;>
    exact neat_textShadows named

theorem leads_placeholder (b : Box) : Leads ("'" ++ b.placeholder ++ "'") :=
  (Leads.append (by decide) ((Css.dense_placeholder b).not_mem (by decide))).append (by decide)

theorem neat_imageWidget (b : Box) : (imageWidget b).Neat names := by
  have sized : ∀ extent : Design.Extent, Neat? names (extent.fixed?.map number) :=
    fun extent => over?_map neat_number _
  have radius : Neat? names (borderRadius? b.style.cornerRadius) := neat?_borderRadius _
  have fit : Opens "BoxFit.cover" := by decide
  unfold imageWidget
  dsimp only
  split
  · rename_i rounded present
    simp (disch := decide) only [over_call, argsOver_append, argsOver_arg, argsOver_argOpt,
      argsOver_positional, over_raw, (leads_placeholder b).1, sized, fit, radius rounded present,
      and_self]
  · simp (disch := decide) only [over_call, argsOver_append, argsOver_arg, argsOver_argOpt,
      argsOver_positional, over_raw, (leads_placeholder b).1, sized, fit, and_self]

theorem neat_lineWidget (named : n.box.Named) : (lineWidget parent n).Neat names := by
  have height : Neat? names (n.box.style.stroke.map fun s => number s.weight) :=
    over?_map (fun _ => neat_number _) _
  have color : Neat? names (n.box.style.topSolidStroke?.map fun c => raw (color c)) := by
    intro e present
    obtain ⟨c, top, rfl⟩ := Option.map_eq_some_iff.mp present
    exact neat_color (named.topStroke top)
  unfold lineWidget
  simp (disch := decide) only [over_call, argsOver_append, argsOver_argOpt, neat?_size, height,
    color, and_self]

/-! ## Decoration -/

theorem neatArgs_fillArg {fill : Design.Fill} (named : fill.Named) :
    NeatArgs names (fillArg b fill) := by
  cases fill with
  | solid c => exact (argsOver_arg (by decide)).mpr (neat_color named.color)
  | linearGradient angle stops =>
      exact (argsOver_arg (by decide)).mpr (neat_linearGradient named.stops)
  | image hash scaleMode =>
      have address : Opens ("NetworkImage('" ++ b.placeholder ++ "')") :=
        ((Leads.append (by decide) ((Css.dense_placeholder b).not_mem (by decide))).append
          (by decide)).1
      unfold fillArg
      cases scaleMode <;>
        simp (disch := decide) only [over_call, argsOver_append, argsOver_arg, over_raw, address,
          true_and] <;>
        decide

theorem neatArgs_decorationArgs (named : b.Named) : NeatArgs names (decorationArgs b) := by
  have fill : NeatArgs names (fillArgs b) := by
    unfold fillArgs
    split
    · rename_i top last
      refine argsOver_append.mpr ⟨neatArgs_fillArg (named.fill (List.mem_of_getLast? last)), ?_⟩
      split
      · exact argsOver_nil
      · exact (argsOver_arg (by decide)).mpr (neat_blendMode _)
    · exact argsOver_nil
  have border : NeatArgs names (borderArgs b) := by
    unfold borderArgs
    split
    · rename_i stroke c _ top
      have align : (strokeAlign stroke.align).Neat names := by
        cases stroke.align <;> exact over_raw.mpr (by decide)
      have color : (raw (color c)).Neat names := neat_color (named.lastStroke top).color
      simp (disch := decide) only [over_call, argsOver_append, argsOver_arg, color, neat_number,
        align, and_self]
    · exact argsOver_nil
  have shape : NeatArgs names (shapeArgs b) := by
    unfold shapeArgs
    split
    · exact (argsOver_arg (by decide)).mpr (over_raw.mpr (by decide))
    · exact (argsOver_argOpt (by decide)).mpr (neat?_borderRadius _)
  unfold decorationArgs
  simp (disch := decide) only [argsOver_append, argsOver_argList, fill, border, shape, true_and]
  exact neat_boxShadows named

theorem neat?_decoration (named : b.Named) : Neat? names (decoration? b) := by
  unfold decoration?
  split
  · exact over?_none
  · exact over?_some.mpr ((over_call (by decide)).mpr (neatArgs_decorationArgs named))

/-! ## Containers -/

theorem neat_flowCall (f : Design.Flow) (hugs : Bool) (neat : ∀ e ∈ items, e.Neat names) :
    (flowCall f hugs items).Neat names := by
  have children := over_list.mpr neat
  unfold flowCall
  split
  · have along : (wrapAlignment f.distribution).Neat names := by
      cases f.distribution <;> exact over_raw.mpr (by decide)
    have across : (wrapCrossAlignment f.alignment).Neat names := by
      cases f.alignment <;> exact over_raw.mpr (by decide)
    have direction : Opens "Axis.vertical" := by decide
    unfold wrapCall
    simp (disch := decide) only [over_call, argsOver_append, argsOver_arg, argsOver_argIf, over_raw,
      neat_number, along, across, direction, children, implies_true, and_self]
  · have along : Neat? names (mainAxisAlignment? f.distribution) := by
      cases f.distribution with
      | start => exact over?_none
      | center | finish | spaceBetween => exact over?_some.mpr (over_raw.mpr (by decide))
    have across : Neat? names (crossAxisAlignment? f.alignment) := by
      cases f.alignment with
      | center => exact over?_none
      | start | finish | baseline => exact over?_some.mpr (over_raw.mpr (by decide))
    have size : Opens "MainAxisSize.min" := by decide
    have letters : Opens "TextBaseline.alphabetic" := by decide
    unfold lineCall
    cases f.direction <;>
      simp (disch := decide) only [over_call, argsOver_append, argsOver_arg, argsOver_argIf,
        argsOver_argOpt, over_raw, neat_number, along, across, size, letters, children,
        implies_true, and_self]

theorem neat_stack (clips : Bool) (neat : ∀ e ∈ items, e.Neat names) :
    (stack clips items).Neat names := by
  have children := over_list.mpr neat
  have visible : Opens "Clip.none" := by decide
  unfold stack
  simp (disch := decide) only [over_call, argsOver_append, argsOver_arg, argsOver_argIf, over_raw,
    visible, children, implies_true, and_self]

theorem neat?_childrenWidget (b : Box) {made : List (Node × Expr)}
    (neat : ∀ m ∈ made, m.2.Neat names) : Neat? names (childrenWidget? b made) := by
  have part : ∀ absolute, ∀ e ∈ Node.placedAs absolute made, e.Neat names := by
    intro absolute e member
    obtain ⟨m, among, rfl⟩ := List.mem_map.mp member
    exact neat m (List.mem_of_mem_filter among)
  unfold childrenWidget?
  split
  · exact over?_none
  · split
    · rename_i f _
      have line := neat_flowCall f (b.layout.sizing.along f.direction).isHug (part false)
      dsimp only
      split
      · exact over?_some.mpr line
      · exact over?_some.mpr (neat_stack false (List.forall_mem_cons.mpr ⟨line, part true⟩))
    · exact over?_some.mpr (neat_stack _ (List.forall_mem_map.mpr neat))

theorem neat_containerWidget (named : n.box.Named) {made : List (Node × Expr)}
    (neat : ∀ m ∈ made, m.2.Neat names) : (containerWidget parent n made).Neat names := by
  have padding : Neat? names (padding? n.box) := by
    unfold padding?
    split
    · split
      · exact over?_none
      · exact over?_some.mpr (neat_edgeInsets _)
    · exact over?_none
  have child := neat?_childrenWidget n.box neat
  have decoration : Neat? names (decoration? n.box) := neat?_decoration named
  have clip : Opens "Clip.antiAlias" := by decide
  unfold containerWidget
  dsimp only
  split
  · split <;>
      simp (disch := decide) only [over_call, argsOver_append, argsOver_arg, argsOver_argOpt,
        neat?_size, child, and_self]
  · simp (disch := decide) only [over_call, argsOver_append, argsOver_argOpt, argsOver_argIf,
      over_raw, neat?_size, clip, padding, decoration, child, implies_true, and_self]

theorem neat_base (named : n.box.Named) {made : List (Node × Expr)}
    (neat : ∀ m ∈ made, m.2.Neat names) : (base parent n made).Neat names := by
  unfold base
  split
  · exact neat_textWidget named _
  · split
    · exact neat_imageWidget n.box
    · split
      · exact neat_lineWidget named
      · exact neat_containerWidget named neat

/-! ## Nodes -/

theorem neat_effects (effects : List Design.Effect) (neat : e.Neat names) :
    (effects.foldl withEffect e).Neat names := by
  induction effects generalizing e with
  | nil => exact neat
  | cons effect rest ih =>
      refine ih ?_
      cases effect with
      | dropShadow | innerShadow => exact neat
      | layerBlur | backgroundBlur =>
          unfold withEffect
          simp (disch := decide) only [over_call, argsOver_append, argsOver_arg, neat_blurFilter,
            neat, and_self]

theorem neat_wrapped (b : Box) (neat : e.Neat names) : (wrapped names b e).Neat names := by
  have filtered := neat_effects b.style.effects neat
  have faint : (withOpacity b.style.opacity (b.style.effects.foldl withEffect e)).Neat names := by
    unfold withOpacity
    split
    · simp (disch := decide) only [over_call, argsOver_append, argsOver_arg, neat_number, filtered,
        and_self]
    · exact filtered
  have turned : (withRotation b.geometry.rotation
      (withOpacity b.style.opacity (b.style.effects.foldl withEffect e))).Neat names := by
    have angle := opens_of_word (Decimal.within_atMost 4 (Decimal.radians (-b.geometry.rotation)))
    have corner : Opens "Alignment.topLeft" := by decide
    unfold withRotation
    split
    · simp (disch := decide) only [over_call, argsOver_append, argsOver_arg, over_raw, angle, corner,
        faint, and_self]
    · exact faint
  unfold wrapped withName
  split
  · exact .commented ⟨rfl, Design.oneLine_substitute_blank _⟩ turned
  · exact turned

theorem neat_placed (parent n : Node) (neat : e.Neat names) : (placed parent n e).Neat names := by
  unfold placed
  split
  · simp (disch := decide) only [over_call, argsOver_append, argsOver_arg, neat_number, neat,
      and_self]
  · split
    · simp (disch := decide) only [over_call, argsOver_arg, neat]
    · exact neat
  · exact neat

/-- All texts that are copied into the code of a widget open a line. -/
theorem neat_widget (names : Bool) (forest : List Node) :
    (∀ n ∈ Node.preorderList forest, n.box.Named) → ∀ n ∈ forest, ∀ parent : Option Node,
      (widget names parent n).Neat names := by
  induction forest using Node.forestInduction with
  | nil => exact fun _ n member => nomatch member
  | cons box children rest below after =>
      intro called n member parent
      obtain ⟨named, inner, others⟩ := Node.forall_preorderList_mk_cons.mp called
      rcases List.mem_cons.mp member with rfl | later
      · rw [widget, placedChildren_eq_map]
        refine neat_wrapped box (@neat_base _ _ _ named _ ?_)
        exact List.forall_mem_map.mpr fun c child => neat_placed _ c (below inner c child _)
      · exact after others n later parent

end

section

variable {s : Settings} {host : Option Scene.Node} {roots : List Scene.Node} {forest : List Node}

theorem neat_widget_of_build (built : Design.build s host roots = .ok forest) (names : Bool) :
    ∀ n ∈ forest, (widget names none n).Neat names :=
  fun n member => neat_widget names forest (Design.named_of_build built) n member none

/-- Without the names of layers a design has no comments, and the layout of its code comes down to
one line. -/
theorem erase_snippet (built : Design.build s host roots = .ok forest) {t : Settings}
    (unnamed : t.showLayerNames = false) : erase (snippet t forest).toList =
      (forestWidget false forest).oneLine.toList := by
  have each := neat_widget_of_build built false
  have whole : (forestWidget false forest).Neat false := by
    unfold forestWidget
    split
    · rename_i only single
      have widgets := List.forall_mem_map.mpr each
      rw [single] at widgets
      exact widgets only (List.mem_singleton_self only)
    · have start : Opens "CrossAxisAlignment.start" := by decide
      simp (disch := decide) only [over_call, argsOver_append, argsOver_arg, over_raw, over_list,
        start, true_and]
      exact List.forall_mem_map.mpr each
  have quiet : (forestWidget false forest).Quiet :=
    whole.mono (fun _ absent => absurd absent.1 (by decide)) fun _ opens => opens.1
  rw [snippet, unnamed]
  exact erase_eq_oneLine quiet 0

end

end Handoff.Dart
