import Handoff.Dart.Code
import Handoff.Proofs.Css.Properties
import Handoff.Proofs.Dart.Printing
import Handoff.Proofs.Design.ColorNames
import Handoff.Proofs.Design.TextGroups
import Handoff.Proofs.Design.TypeNames
import Handoff.Proofs.Design.Wording
import Handoff.Proofs.Emission
import Handoff.Proofs.Literals
import Handoff.Proofs.Template.Scaffold

/-!
The words of Flutter code.

`Expr.Holds e words` says that an expression spells words wherever it is printed.  A call holds
the words of its arguments one after another, and everything but texts and names holds none
(`Plain`).  So the widget of a node holds the words of the nodes below it as they are lined up
(`holds_widget`).
-/

namespace Handoff.Dart

open Design (Box Node ColorRef)
open Handoff.Dart.Expr (raw call list commented)
open Text (Within within_append within_chars isCodeChar Word Lexis)
open Text.Lexis (InTurn Plain Spells plain_append plain_nil)

/-- Dart with its single quotes. -/
def lexis : Lexis where
  quoting := quoting
  escape := Text.dartEscape
  writes := writes_dartEscape
  bare := bare_dartEscape
  ends := Text.ends_dartEscape
  dense := List.all_iff_forall_prop.mp rfl

theorem spells_literal (s : String) : lexis.Spells (literal s) [.literal s] := by
  have own : literal s = lexis.literal s := by
    rw [← String.toList_inj, toList_literal, Lexis.toList_literal]
    rfl
  exact own ▸ .literal s

theorem spells_address {url : String} (dense : Within Text.isDenseChar url) :
    lexis.Spells ("'" ++ url ++ "'") [] := by
  have own := Lexis.literal_eq_of_dense (l := lexis) dense
  exact own ▸ .address dense

/-! ## Expressions -/

variable {e inner : Expr} {words own : List Word} {name text comment : String} {indent : Nat}
  {args first later : List Arg} {items : List Expr}

/-- An expression has the given words wherever it is printed; its comment is apart, since the
comment of an argument moves in front of its name. -/
def Expr.Holds : Expr → List Word → Prop
  | commented comment inner, words =>
    Text.OneLine comment ∧ ∃ own, (∀ indent, lexis.Spells (inner.render indent) own) ∧
      words = .comment (" " ++ comment) :: own
  | e, words => ∀ indent, lexis.Spells (e.render indent) words

/-- An argument whose value has the given words. -/
def ArgHolds (a : Arg) (words : List Word) : Prop :=
  (∀ name, a.1 = some name → Within isCodeChar name) ∧ a.2.Holds words

theorem Expr.Holds.render (holds : e.Holds words) (indent : Nat) :
    lexis.Spells (e.render indent) words := by
  cases e with
  | commented comment inner =>
      obtain ⟨line, own, spells, rfl⟩ := holds
      have mark : lexis.Spells ("" ++ "// " ++ comment ++ "\n") [.comment (" " ++ comment)] :=
        .margin (within_chars rfl) line
      rw [String.empty_append] at mark
      rw [Expr.render]
      exact .append (.before mark (Text.within_spaces indent)) (spells indent)
  | raw text => exact holds indent
  | call name args => exact holds indent
  | list items => exact holds indent

theorem holds_raw (spells : lexis.Spells text words) : (raw text).Holds words :=
  fun _ => spells

theorem holds_commented (line : Text.OneLine comment) (holds : inner.Holds own) :
    (commented comment inner).Holds (.comment (" " ++ comment) :: own) :=
  ⟨line, own, holds.render, rfl⟩

/-! ## Arguments and items -/

theorem spells_argText {a : Arg} (holds : ArgHolds a words) (margin : Nat) :
    lexis.Spells (argText margin a) words := by
  obtain ⟨name, value⟩ := a
  obtain ⟨code, holds⟩ := holds
  cases name with
  | none =>
      rw [argText]
      exact holds.render margin
  | some name =>
      have named : Within isCodeChar (name ++ ": ") :=
        within_append.mpr ⟨code name rfl, within_chars rfl⟩
      cases value with
      | commented comment inner =>
          obtain ⟨line, own, spells, rfl⟩ := holds
          -- The comment has the line above the name.
          have mark : lexis.Spells ("" ++ "// " ++ comment ++ "\n") [.comment (" " ++ comment)] :=
            .margin (within_chars rfl) line
          have split : argText margin (some name, commented comment inner) =
              "// " ++ comment ++ "\n" ++ (Text.spaces margin ++ (name ++ ": ") ++
                inner.render margin) := by
            rw [argText]
            simp only [String.append_assoc]
          rw [String.empty_append] at mark
          rw [split]
          exact .append mark
            (.after (within_append.mpr ⟨Text.within_spaces margin, named⟩) (spells margin))
      | raw | call | list =>
          rw [argText]
          · exact .after named (holds.render margin)
          · exact fun _ _ same => by cases same

theorem spells_block {parts : List String} (each : InTurn lexis.Spells parts words)
    (margin : Nat) : lexis.Spells (block margin parts) words :=
  .join (each.map fun _ _ own =>
    .before (.after (Text.within_spaces margin) own) (within_chars rfl))

theorem spells_laidOut {opening closing : String} {parts : Nat → List String}
    (laid : LaidOut indent opening closing parts text) (front : Within isCodeChar opening)
    (back : Within isCodeChar closing) (each : ∀ margin, InTurn lexis.Spells (parts margin) words) :
    lexis.Spells text words := by
  cases laid with
  | line =>
      have between := Spells.intercalate (within_chars rfl : Within isCodeChar ", ") (each indent)
      exact .before (.after front between) back
  | block =>
      have inside := spells_block (each (indent + 2)) (indent + 2)
      have opened := within_append.mpr ⟨front, (within_chars rfl : Within isCodeChar "\n")⟩
      exact .before (.before (.after opened inside) (Text.within_spaces indent)) back

theorem holds_call (code : Within isCodeChar name) (each : InTurn ArgHolds args words) :
    (call name args).Holds words := by
  have opening := within_append.mpr ⟨code, (within_chars rfl : Within isCodeChar "(")⟩
  exact fun indent => spells_laidOut (laidOut_call indent name args) opening (within_chars rfl)
    fun margin => each.map fun _ _ own => spells_argText own margin

theorem holds_list (each : InTurn Expr.Holds items words) : (list items).Holds words :=
  fun indent => spells_laidOut (laidOut_list indent items) (within_chars rfl) (within_chars rfl)
    fun margin => each.map fun _ _ own => own.render margin

/-! ## Expressions without words -/

theorem inTurn_arg (code : Within isCodeChar name) (holds : e.Holds words) :
    InTurn ArgHolds (arg name e) words := by
  refine .singleton ⟨fun other same => ?_, holds⟩
  cases same
  exact code

@[simp] theorem plain_arg : Plain ArgHolds (arg name e) ↔ Within isCodeChar name ∧ e.Holds [] := by
  simp [Plain, ArgHolds, arg]

@[simp] theorem plain_positional : Plain ArgHolds (positional e) ↔ e.Holds [] := by
  simp [Plain, ArgHolds, positional]

theorem plain_argOpt {value : Option Expr} (code : Within isCodeChar name)
    (holds : ∀ e, value = some e → e.Holds []) : Plain ArgHolds (argOpt name value) := by
  cases value with
  | none => exact plain_nil
  | some e => exact plain_arg.mpr ⟨code, holds e rfl⟩

theorem plain_argIf {condition : Bool} (code : Within isCodeChar name) (holds : e.Holds []) :
    Plain ArgHolds (argIf condition name e) := by
  cases condition
  · exact plain_nil
  · exact plain_arg.mpr ⟨code, holds⟩

theorem plain_argOpt_ite {c : Prop} [Decidable c] (code : Within isCodeChar name)
    (holds : e.Holds []) : Plain ArgHolds (argOpt name (if c then some e else none)) := by
  refine plain_argOpt code fun other present => ?_
  split at present
  · cases present
    exact holds
  · cases present

theorem plain_argList (code : Within isCodeChar name) (holds : ∀ e ∈ items, e.Holds []) :
    Plain ArgHolds (argList name items) := by
  unfold argList
  split
  · exact plain_nil
  · exact plain_arg.mpr ⟨code, holds_list (.none holds)⟩

theorem holds_plainCall (code : Within isCodeChar name) (plain : Plain ArgHolds args) :
    (call name args).Holds [] :=
  holds_call code (.none plain)

theorem holds_code (code : Within isCodeChar text) : (raw text).Holds [] :=
  holds_raw (.code code)

/-! ## Values -/

theorem holds_number (v : Float) : (number v).Holds [] :=
  holds_code (Decimal.within_pointed v).code

theorem within_upperHex {bytes : List Nat} (small : ∀ byte ∈ bytes, byte < 256) :
    Within Text.isWordChar (upperHex bytes) := by
  have digits : ∀ d < 16, Text.isWordChar (Text.hexDigit d).toUpper = true := by decide
  refine Text.within_ofList.mpr fun c member => ?_
  obtain ⟨d, pair, rfl⟩ := List.mem_map.mp member
  obtain ⟨byte, among, own⟩ := List.mem_flatMap.mp pair
  have bound := small byte among
  rcases List.mem_cons.mp own with rfl | own
  · exact digits _ (by omega)
  · rw [List.mem_singleton.mp own]
    exact digits _ (by omega)

/-- The channels of a color, alpha first. -/
theorem within_channels (c : Color) :
    Within Text.isWordChar (upperHex [c.bytes.a, c.bytes.r, c.bytes.g, c.bytes.b]) := by
  refine within_upperHex ?_
  simp only [Color.bytes, List.forall_mem_cons, Color.byte_lt, true_and]
  exact List.forall_mem_nil _

theorem within_color {c : ColorRef} (named : c.Named) : Within isCodeChar (color c) := by
  unfold color
  split
  · rename_i p called
    have name := (named p called).code
    split
    · exact name
    · simp only [within_append, name, (Decimal.within_plain _).code, true_and, and_true]
      and_intros <;> exact within_chars rfl
  · exact within_append.mpr
      ⟨within_append.mpr ⟨within_chars rfl, (within_channels c.color).code⟩, within_chars rfl⟩

theorem holds_color {c : ColorRef} (named : c.Named) : (raw (color c)).Holds [] :=
  holds_code (within_color named)

theorem within_alignment (x y : Float) : Within isCodeChar (alignment x y) := by
  have table : ∀ entry ∈ alignmentNames, Within isCodeChar entry.2 := by decide
  unfold alignment
  dsimp only
  split
  · rename_i name found
    split at found
    · obtain ⟨before, after, listed, -⟩ := List.lookup_eq_some_iff.mp found
      have member : (_, name) ∈ alignmentNames :=
        listed ▸ List.mem_append_right before List.mem_cons_self
      exact within_append.mpr ⟨within_chars rfl, table _ member⟩
    · cases found
  · simp only [within_append, (Decimal.within_plain _).code, and_true]
    and_intros <;> exact within_chars rfl

theorem holds_linearGradient {angle : Float} {stops : List Design.GradientStop}
    (named : ∀ s ∈ stops, s.color.Named) : (linearGradient angle stops).Holds [] := by
  have colors : (list (stops.map fun s => raw (color s.color))).Holds [] :=
    holds_list (.none (List.forall_mem_map.mpr fun s member => holds_color (named s member)))
  have positions : (list (stops.map fun s => number s.position)).Holds [] :=
    holds_list (.none (List.forall_mem_map.mpr fun s _ => holds_number s.position))
  unfold linearGradient
  refine holds_plainCall (within_chars rfl) ?_
  simp only [plain_append, plain_arg, colors, positions, holds_code (within_alignment _ _),
    and_true]
  and_intros <;> exact within_chars rfl

theorem holds_circular (r : Float) : (circular r).Holds [] := by
  refine holds_code ?_
  simp only [within_append, (Decimal.within_pointed _).code, and_true]
  and_intros <;> exact within_chars rfl

theorem holds_borderRadius {radius : Design.CornerRadius} :
    ∀ e, borderRadius? radius = some e → e.Holds [] := by
  intro e present
  unfold borderRadius? at present
  split at present
  · cases present
  · cases present
    refine holds_code ?_
    simp only [within_append, (Decimal.within_pointed _).code, and_true]
    and_intros <;> exact within_chars rfl
  · cases present
    refine holds_plainCall (within_chars rfl) ?_
    simp only [plain_append, plain_arg, holds_circular, and_true]
    and_intros <;> exact within_chars rfl

theorem holds_edgeInsets (p : Design.Padding) : (edgeInsets p).Holds [] := by
  unfold edgeInsets
  refine holds_code ?_
  repeat' split
  all_goals
    simp only [within_append, (Decimal.within_pointed _).code, and_true]
    and_intros <;> exact within_chars rfl

theorem holds_offset (x y : Float) : (offset x y).Holds [] := by
  refine holds_code ?_
  simp only [within_append, (Decimal.within_pointed _).code, and_true]
  and_intros <;> exact within_chars rfl

theorem holds_blurFilter (radius : Float) : (blurFilter radius).Holds [] := by
  refine holds_code ?_
  simp only [within_append, (Decimal.within_pointed _).code, and_true]
  and_intros <;> exact within_chars rfl

theorem isSnake_blendMode (m : Design.BlendMode) :
    Text.IsSnake (Design.Enumeration.word m).toList := by
  have pieces : ∀ piece ∈ Text.splitChars '_' (Design.Enumeration.word m).toList,
      piece ≠ [] ∧ piece.all Char.isLower = true := by
    cases m <;> decide +kernel
  refine ⟨Text.splitChars '_' (Design.Enumeration.word m).toList, Text.splitChars_ne_nil _ _, ?_,
    fun piece among => ?_⟩
  · cases m <;> decide +kernel
  · exact Text.isPiece_of_all_isLower (pieces piece among).1 (pieces piece among).2

theorem holds_blendMode (m : Design.BlendMode) : (blendMode m).Holds [] :=
  holds_code (within_append.mpr ⟨within_chars rfl, Text.within_of_isPlain
    (Text.isPlain_of_mem_camel (isSnake_blendMode m).isPiece_of_mem_words)⟩)

theorem holds_fontWeight (weight : Nat) : (fontWeight weight).Holds [] :=
  holds_code (within_append.mpr ⟨within_chars rfl, (Text.within_repr _).code⟩)

/-- The text style of a typography has the family as its only word. -/
theorem inTurn_textStyleArgs (t : Design.Typography) :
    InTurn ArgHolds (textStyleArgs t) [.literal t.family] := by
  have family : InTurn ArgHolds (arg "fontFamily" (raw (literal t.family))) [.literal t.family] :=
    inTurn_arg (within_chars rfl) (holds_raw (spells_literal t.family))
  have height : Plain ArgHolds (argOpt "height" (if t.size > 0.0 then
      t.lineHeight.map fun h => raw (Decimal.plain (h / t.size)) else none)) := by
    refine plain_argOpt (within_chars rfl) fun e present => ?_
    split at present
    · obtain ⟨h, -, rfl⟩ := Option.map_eq_some_iff.mp present
      exact holds_code (Decimal.within_plain _).code
    · cases present
  have decoration : Plain ArgHolds (argOpt "decoration" (textDecoration? t.decoration)) := by
    refine plain_argOpt (within_chars rfl) fun e present => ?_
    cases drawn : t.decoration <;> rw [drawn] at present <;> cases present <;>
      exact holds_code (within_chars rfl)
  have size : Plain ArgHolds (arg "fontSize" (number t.size)) :=
    plain_arg.mpr ⟨within_chars rfl, holds_number _⟩
  have weight : Plain ArgHolds (arg "fontWeight" (fontWeight t.weight)) :=
    plain_arg.mpr ⟨within_chars rfl, holds_fontWeight _⟩
  refine .before ?_ decoration
  refine .before ?_ (plain_argOpt_ite (within_chars rfl) (holds_number _))
  refine .before ?_ height
  refine .before ?_ (plain_argOpt_ite (within_chars rfl) ?style)
  · exact .before (.before family size) weight
  case style => exact holds_code (within_chars rfl)

/-! ## Leaves -/

variable {n : Node} {parent : Option Node} {b : Box}

theorem holds_size? {axis : Design.Direction} :
    ∀ e, size? parent n axis = some e → e.Holds [] := by
  intro e present
  unfold size? at present
  split at present
  · cases present
    exact holds_number _
  · cases present
  · split at present
    · cases present
    · cases present
      exact holds_code (within_chars rfl)

theorem plain_sizeArgs : Plain ArgHolds
    (argOpt "width" (size? parent n .horizontal) ++ argOpt "height" (size? parent n .vertical)) :=
  .append (plain_argOpt (within_chars rfl) holds_size?)
    (plain_argOpt (within_chars rfl) holds_size?)

theorem holds_topColor? (named : b.Named) :
    ∀ e, topColor? b.style.fills = some e → e.Holds [] := by
  intro e present
  unfold topColor? at present
  split at present
  · rename_i c top
    cases present
    exact holds_color (named.lastFill top).color
  · cases present

theorem holds_textShadow? (named : b.Named) :
    ∀ e ∈ b.style.effects.filterMap textShadow?, e.Holds [] := by
  intro e member
  obtain ⟨effect, among, made⟩ := List.mem_filterMap.mp member
  cases effect with
  | dropShadow s =>
      cases made
      refine holds_plainCall (within_chars rfl) ?_
      simp only [plain_append, plain_arg, holds_color (named.effect among rfl), holds_offset,
        holds_number, and_true]
      and_intros <;> exact within_chars rfl
  | innerShadow | layerBlur | backgroundBlur => cases made

theorem holds_boxShadow? (named : b.Named) :
    ∀ e ∈ b.style.effects.filterMap boxShadow?, e.Holds [] := by
  intro e member
  obtain ⟨effect, among, made⟩ := List.mem_filterMap.mp member
  cases effect with
  | dropShadow s =>
      cases made
      refine holds_plainCall (within_chars rfl) ?_
      simp only [plain_append, plain_arg, holds_color (named.effect among rfl), holds_offset,
        holds_number, and_true]
      and_intros <;> exact within_chars rfl
  | innerShadow | layerBlur | backgroundBlur => cases made

theorem holds_sized {width height : Option Expr} (plain : Plain ArgHolds
    (argOpt "width" width ++ argOpt "height" height)) (holds : e.Holds words) :
    (sized width height e).Holds words := by
  unfold sized
  split
  · exact holds
  · have child := inTurn_arg (within_chars rfl : Within isCodeChar "child") holds
    exact holds_call (within_chars rfl) (.after plain child)

theorem holds_textWidget (named : n.box.Named) (t : Design.TextStyle) :
    (textWidget parent n t).Holds t.wording := by
  have color : Plain ArgHolds (argOpt "color" (topColor? n.box.style.fills)) :=
    plain_argOpt (within_chars rfl) (holds_topColor? named)
  have shadows : Plain ArgHolds (argList "shadows" (n.box.style.effects.filterMap textShadow?)) :=
    plain_argList (within_chars rfl) (holds_textShadow? named)
  have style := holds_call (within_chars rfl : Within isCodeChar "TextStyle")
    (.before (.before (inTurn_textStyleArgs t.typography) color) shadows)
  have aligned : Plain ArgHolds (argOpt "textAlign" (textAlign? t.typography.align)) := by
    refine plain_argOpt (within_chars rfl) fun e present => ?_
    cases side : t.typography.align <;> rw [side] at present <;> cases present <;>
      exact holds_code (within_chars rfl)
  have characters : InTurn ArgHolds
      (positional (raw (literal (t.typography.textCase.apply t.characters))))
      [.literal (t.typography.textCase.apply t.characters)] := by
    refine .singleton ⟨fun name named => ?_, holds_raw (spells_literal _)⟩
    cases named
  exact holds_sized plain_sizeArgs (holds_call (within_chars rfl)
    (.append (.before characters aligned) (inTurn_arg (within_chars rfl) style)))

theorem holds_imageWidget (b : Box) : (imageWidget b).Holds [] := by
  have sized : ∀ extent : Design.Extent, ∀ e, extent.fixed?.map number = some e → e.Holds [] := by
    intro extent e present
    obtain ⟨v, -, rfl⟩ := Option.map_eq_some_iff.mp present
    exact holds_number v
  have address : (raw ("'" ++ b.placeholder ++ "'")).Holds [] :=
    holds_raw (spells_address (Css.dense_placeholder b))
  have image : (call "Image.network"
      (positional (raw ("'" ++ b.placeholder ++ "'")) ++
        argOpt "width" (b.layout.sizing.horizontal.fixed?.map number) ++
        argOpt "height" (b.layout.sizing.vertical.fixed?.map number) ++
        arg "fit" (raw "BoxFit.cover"))).Holds [] := by
    refine holds_plainCall (within_chars rfl) ?_
    refine .append (.append (.append (plain_positional.mpr address) ?width) ?height) ?fit
    case width => exact plain_argOpt (within_chars rfl) (sized _)
    case height => exact plain_argOpt (within_chars rfl) (sized _)
    case fit => exact plain_arg.mpr ⟨within_chars rfl, holds_code (within_chars rfl)⟩
  unfold imageWidget
  dsimp only
  split
  · rename_i radius rounded
    refine holds_plainCall (within_chars rfl) ?_
    simp only [plain_append, plain_arg, image, holds_borderRadius _ rounded, and_true]
    and_intros <;> exact within_chars rfl
  · exact image

theorem holds_lineWidget (named : n.box.Named) : (lineWidget parent n).Holds [] := by
  refine holds_plainCall (within_chars rfl) ?_
  refine .append (.append (plain_argOpt (within_chars rfl) holds_size?)
    (plain_argOpt (within_chars rfl) fun e present => ?height))
    (plain_argOpt (within_chars rfl) fun e present => ?color)
  case height =>
    obtain ⟨s, -, rfl⟩ := Option.map_eq_some_iff.mp present
    exact holds_number _
  case color =>
    obtain ⟨c, top, rfl⟩ := Option.map_eq_some_iff.mp present
    exact holds_color (named.topStroke top)

/-! ## Decoration -/

theorem holds_decorationImage (b : Box) {fit : List Arg} (plain : Plain ArgHolds fit) :
    (call "DecorationImage"
      (arg "image" (raw ("NetworkImage('" ++ b.placeholder ++ "')")) ++ fit)).Holds [] := by
  have split : "NetworkImage('" ++ b.placeholder ++ "')" =
      "NetworkImage(" ++ ("'" ++ b.placeholder ++ "'") ++ ")" := by
    rw [← String.toList_inj]
    simp
  have address := (spells_address (Css.dense_placeholder b)).before
    (within_chars rfl : Within isCodeChar ")")
  have image : (raw ("NetworkImage('" ++ b.placeholder ++ "')")).Holds [] := by
    rw [split, String.append_assoc]
    exact holds_raw (.after (within_chars rfl) address)
  exact holds_plainCall (within_chars rfl)
    (.append (plain_arg.mpr ⟨within_chars rfl, image⟩) plain)

theorem plain_fillArg {fill : Design.Fill} (named : fill.Named) :
    Plain ArgHolds (fillArg b fill) := by
  cases fill with
  | solid c => exact plain_arg.mpr ⟨within_chars rfl, holds_color named.color⟩
  | linearGradient angle stops =>
      exact plain_arg.mpr ⟨within_chars rfl, holds_linearGradient named.stops⟩
  | image hash scaleMode =>
      refine plain_arg.mpr ⟨within_chars rfl, holds_decorationImage b ?_⟩
      cases scaleMode <;> exact plain_arg.mpr ⟨within_chars rfl, holds_code (within_chars rfl)⟩

theorem plain_fillArgs (named : b.Named) : Plain ArgHolds (fillArgs b) := by
  unfold fillArgs
  split
  · rename_i top last
    refine .append (plain_fillArg (named.fill (List.mem_of_getLast? last))) ?_
    split
    · exact plain_nil
    · exact plain_arg.mpr ⟨within_chars rfl, holds_blendMode _⟩
  · exact plain_nil

theorem plain_borderArgs (named : b.Named) : Plain ArgHolds (borderArgs b) := by
  unfold borderArgs
  split
  · rename_i stroke c _ top
    have align : (strokeAlign stroke.align).Holds [] := by
      cases stroke.align <;> exact holds_code (within_chars rfl)
    refine plain_arg.mpr ⟨within_chars rfl, holds_plainCall (within_chars rfl) ?_⟩
    simp only [plain_append, plain_arg, holds_color (named.lastStroke top).color, holds_number,
      align, and_true]
    and_intros <;> exact within_chars rfl
  · exact plain_nil

theorem plain_shapeArgs : Plain ArgHolds (shapeArgs b) := by
  unfold shapeArgs
  split
  · exact plain_arg.mpr ⟨within_chars rfl, holds_code (within_chars rfl)⟩
  · exact plain_argOpt (within_chars rfl) holds_borderRadius

theorem plain_decorationArgs (named : b.Named) : Plain ArgHolds (decorationArgs b) := by
  have shadows : Plain ArgHolds (argList "boxShadow" (b.style.effects.filterMap boxShadow?)) :=
    plain_argList (within_chars rfl) (holds_boxShadow? named)
  exact .append (.append (.append (plain_fillArgs named) (plain_borderArgs named)) plain_shapeArgs)
    shadows

theorem holds_decoration? (named : b.Named) : ∀ e, decoration? b = some e → e.Holds [] := by
  intro e present
  unfold decoration? at present
  split at present
  · cases present
  · cases present
    exact holds_plainCall (within_chars rfl) (plain_decorationArgs named)

/-! ## Containers -/

variable {children : List Expr}

theorem inTurn_children (each : InTurn Expr.Holds children words) :
    InTurn ArgHolds (arg "children" (list children)) words :=
  inTurn_arg (within_chars rfl) (holds_list each)

theorem holds_flowCall (f : Design.Flow) (hugs : Bool)
    (each : InTurn Expr.Holds children words) : (flowCall f hugs children).Holds words := by
  unfold flowCall
  split
  · refine holds_call (within_chars rfl) (.after ?_ (inTurn_children each))
    have along : (wrapAlignment f.distribution).Holds [] := by
      cases f.distribution <;> exact holds_code (within_chars rfl)
    have across : (wrapCrossAlignment f.alignment).Holds [] := by
      cases f.alignment <;> exact holds_code (within_chars rfl)
    refine .append (.append (.append (.append ?direction ?spacing) ?runSpacing) ?along) ?across
    case direction => exact plain_argIf (within_chars rfl) (holds_code (within_chars rfl))
    case spacing => exact plain_argIf (within_chars rfl) (holds_number _)
    case runSpacing => exact plain_argIf (within_chars rfl) (holds_number _)
    case along => exact plain_arg.mpr ⟨within_chars rfl, along⟩
    case across => exact plain_arg.mpr ⟨within_chars rfl, across⟩
  · refine holds_call ?name (.after ?_ (inTurn_children each))
    case name => cases f.direction <;> exact within_chars rfl
    have along : Plain ArgHolds
        (argOpt "mainAxisAlignment" (mainAxisAlignment? f.distribution)) := by
      refine plain_argOpt (within_chars rfl) fun e present => ?_
      cases way : f.distribution <;> rw [way] at present <;> cases present <;>
        exact holds_code (within_chars rfl)
    have across : Plain ArgHolds
        (argOpt "crossAxisAlignment" (crossAxisAlignment? f.alignment)) := by
      refine plain_argOpt (within_chars rfl) fun e present => ?_
      cases way : f.alignment <;> rw [way] at present <;> cases present <;>
        exact holds_code (within_chars rfl)
    refine .append (.append (.append (.append ?size along) across) ?textBaseline) ?spacing
    case size => exact plain_argIf (within_chars rfl) (holds_code (within_chars rfl))
    case textBaseline => exact plain_argIf (within_chars rfl) (holds_code (within_chars rfl))
    case spacing => exact plain_argIf (within_chars rfl) (holds_number _)

theorem holds_stack (clips : Bool) (each : InTurn Expr.Holds children words) :
    (stack clips children).Holds words := by
  refine holds_call (within_chars rfl) (.after ?_ (inTurn_children each))
  exact plain_argIf (within_chars rfl) (holds_code (within_chars rfl))

section

variable {f : Node → Expr} {g : Node → List Word} {children : List Node}

theorem inTurn_childrenWidget? (b : Box) (each : ∀ c ∈ children, (f c).Holds (g c)) :
    InTurn ArgHolds (argOpt "child" (childrenWidget? b (children.map fun c => (c, f c))))
      ((b.lineUp children).flatMap g) := by
  have part : ∀ p : Node → Bool,
      InTurn Expr.Holds ((children.filter p).map f) ((children.filter p).flatMap g) :=
    fun p => .flatMap fun c member => each c (List.mem_of_mem_filter member)
  unfold childrenWidget? Box.lineUp
  rw [List.isEmpty_map, Node.placedAs_false, Node.placedAs_true]
  by_cases absent : children.isEmpty = true
  · rw [if_pos absent, List.isEmpty_iff.mp absent]
    cases b.layout.mode <;> exact .nil
  · rw [if_neg absent]
    cases b.layout.mode with
    | absolute =>
        rw [List.map_map]
        exact inTurn_arg (within_chars rfl) (holds_stack _ (.flatMap each))
    | flow flow =>
        dsimp only
        have line := holds_flowCall flow (b.layout.sizing.along flow.direction).isHug
          (part (!·.isAbsolute))
        have positioned := part (·.isAbsolute)
        rw [List.flatMap_append]
        split
        · rename_i nothing
          rw [List.map_eq_nil_iff.mp nothing, List.flatMap_nil, List.append_nil]
          exact inTurn_arg (within_chars rfl) line
        · exact inTurn_arg (within_chars rfl) (holds_stack false (.cons line positioned))

theorem holds_padding? : ∀ e, padding? b = some e → e.Holds [] := by
  intro e present
  unfold padding? at present
  split at present
  · split at present
    · cases present
    · cases present
      exact holds_edgeInsets _
  · cases present

theorem holds_containerWidget (named : n.box.Named) (each : ∀ c ∈ children, (f c).Holds (g c)) :
    (containerWidget parent n (children.map fun c => (c, f c))).Holds
      ((n.box.lineUp children).flatMap g) := by
  have child := inTurn_childrenWidget? n.box each
  unfold containerWidget
  dsimp only
  split
  · have box := holds_call (within_chars rfl : Within isCodeChar "SizedBox")
      (.after (@plain_sizeArgs n parent) child)
    split
    · exact holds_call (within_chars rfl) (inTurn_arg (within_chars rfl) box)
    · exact box
  · refine holds_call (within_chars rfl) (.after ?_ child)
    have padding := plain_argOpt (within_chars rfl : Within isCodeChar "padding")
      (holds_padding? (b := n.box))
    have decoration := plain_argOpt (within_chars rfl : Within isCodeChar "decoration")
      (holds_decoration? named)
    refine .append (.append (.append plain_sizeArgs padding) ?clip) decoration
    exact plain_argIf (within_chars rfl) (holds_code (within_chars rfl))

/-- What a node is holds the words of its text and of its children. -/
theorem holds_base (named : n.box.Named) (leaf : isLeaf n.box = true → n.children = [])
    (each : ∀ c ∈ n.children, (f c).Holds (g c)) :
    (base parent n (n.children.map fun c => (c, f c))).Holds
      (n.box.style.text.toList.flatMap (·.wording) ++ (n.box.lineUp n.children).flatMap g) := by
  have childless : isLeaf n.box = true → (n.box.lineUp n.children).flatMap g = [] := by
    intro isLeaf
    rw [leaf isLeaf, Box.lineUp_nil, List.flatMap_nil]
  unfold base
  cases style : n.box.style.text with
  | some t =>
      rw [childless (by rw [isLeaf, style]; rfl), Option.toList_some, List.flatMap_singleton,
        List.append_nil]
      exact holds_textWidget named t
  | none =>
      rw [Option.toList_none, List.flatMap_nil, List.nil_append]
      by_cases image : n.box.kind = .image
      · rw [childless (by simp [isLeaf, image])]
        simp only [image, if_true]
        exact holds_imageWidget n.box
      · by_cases line : n.box.kind.isLine = true
        · rw [childless (by simp [isLeaf, line])]
          simp only [image, line, if_true, if_false]
          exact holds_lineWidget named
        · simp only [image, line, if_false, Bool.false_eq_true]
          exact holds_containerWidget named each

end

/-! ## Nodes -/

theorem holds_effects (effects : List Design.Effect) (holds : e.Holds words) :
    (effects.foldl withEffect e).Holds words := by
  induction effects generalizing e with
  | nil => exact holds
  | cons effect rest ih =>
      have child := inTurn_arg (within_chars rfl : Within isCodeChar "child") holds
      have blur : ∀ name radius, Within isCodeChar name →
          Plain ArgHolds (arg name (blurFilter radius)) :=
        fun name radius code => plain_arg.mpr ⟨code, holds_blurFilter radius⟩
      refine ih ?_
      cases effect with
      | dropShadow | innerShadow => exact holds
      | layerBlur radius =>
          exact holds_call (within_chars rfl)
            (.after (blur _ radius (within_chars rfl)) child)
      | backgroundBlur radius =>
          have filtered := holds_call (within_chars rfl : Within isCodeChar "BackdropFilter")
            (.after (blur "filter" radius (within_chars rfl)) child)
          exact holds_call (within_chars rfl) (inTurn_arg (within_chars rfl) filtered)

theorem holds_withOpacity (opacity : Float) (holds : e.Holds words) :
    (withOpacity opacity e).Holds words := by
  unfold withOpacity
  split
  · have value := plain_arg.mpr
      ⟨(within_chars rfl : Within isCodeChar "opacity"), holds_number opacity⟩
    exact holds_call (within_chars rfl)
      (.after value (inTurn_arg (within_chars rfl) holds))
  · exact holds

theorem holds_withRotation (rotation : Float) (holds : e.Holds words) :
    (withRotation rotation e).Holds words := by
  unfold withRotation
  split
  · have child := inTurn_arg (within_chars rfl : Within isCodeChar "child") holds
    refine holds_call (within_chars rfl) (.after ?_ child)
    simp only [plain_append, plain_arg, holds_code (Decimal.within_atMost _ _).code,
      holds_code (within_chars rfl : Within isCodeChar "Alignment.topLeft"), and_true]
    and_intros <;> exact within_chars rfl
  · exact holds

theorem holds_wrapped (names : Bool) (b : Box) (holds : e.Holds words) :
    (wrapped names b e).Holds
      ((if names then b.name.toList.map Design.nameWord else []) ++ words) := by
  have under := holds_withRotation b.geometry.rotation
    (holds_withOpacity b.style.opacity (holds_effects b.style.effects holds))
  unfold wrapped withName
  cases names with
  | false => exact under
  | true =>
      cases given : b.name with
      | none => exact under
      | some name => exact holds_commented (Design.oneLine_substitute_blank name) under

theorem holds_placed (parent n : Node) (holds : e.Holds words) :
    (placed parent n e).Holds words := by
  have child := inTurn_arg (within_chars rfl : Within isCodeChar "child") holds
  unfold placed
  split
  · refine holds_call (within_chars rfl) (.after ?_ child)
    simp only [plain_append, plain_arg, holds_number, and_true]
    and_intros <;> exact within_chars rfl
  · split
    · exact holds_call (within_chars rfl) child
    · exact holds
  · exact holds

/-- The widget of a node holds the words of all nodes below it, lined up. -/
theorem holds_widget (names : Bool) (forest : List Node) :
    (∀ n ∈ Node.preorderList forest, n.WellFormed ∧ n.box.Named) → ∀ n ∈ forest,
      ∀ parent : Option Node, (widget names parent n).Holds (n.wording names) := by
  induction forest using Node.forestInduction with
  | nil => exact fun _ n member => nomatch member
  | cons box children rest below after =>
      intro formed n member parent
      obtain ⟨own, inner, others⟩ := Node.forall_preorderList_mk_cons.mp formed
      rcases List.mem_cons.mp member with rfl | later
      · obtain ⟨wellFormed, named⟩ := own
        rw [widget, placedChildren_eq_map, Node.wording_eq]
        refine List.append_assoc _ _ _ ▸ holds_wrapped names box ?_
        refine @holds_base _ _ _ (Node.wording names) named
          (fun leaf => wellFormed.kept.leaf (.inr (.inl leaf))) ?_
        exact fun c child => holds_placed _ c (below inner c child _)
      · exact after others n later parent

/-! ## Codes -/

section

variable {s t : Settings} {host : Option Scene.Node} {roots : List Scene.Node}
  {forest : List Node}

theorem holds_ofBuild (built : Design.build s host roots = .ok forest) (names : Bool) :
    ∀ n ∈ forest, (widget names none n).Holds (n.wording names) := by
  refine fun n member => holds_widget names forest (fun m among => ?_) n member none
  exact ⟨Design.wellFormed_of_mem_build built among, Design.named_of_build built m among⟩

theorem spells_snippet (built : Design.build s host roots = .ok forest) :
    lexis.Spells (snippet t forest)
      (Design.wordingOf t.showLayerNames (Node.arrangedAll forest)) := by
  have each := InTurn.flatMap (holds_ofBuild built t.showLayerNames)
  rw [Design.wordingOf_arrangedAll]
  refine Expr.Holds.render ?_ 0
  unfold forestWidget
  split
  · rename_i only single
    rw [single] at each
    exact each.own
  · refine holds_call (within_chars rfl) (.after ?_ (inTurn_children each))
    exact plain_arg.mpr ⟨within_chars rfl, holds_code (within_chars rfl)⟩

theorem spells_import {url : String} (dense : Within Text.isDenseChar url) :
    lexis.Spells ("import " ++ ("'" ++ url ++ "'") ++ ";\n") [] :=
  .before (.after (within_chars rfl) (spells_address dense)) (within_chars rfl)

theorem spells_appHead (needsUi : Bool) : lexis.Spells (appHead needsUi) [] := by
  have material : "import 'package:flutter/material.dart';\n" =
      "import " ++ ("'" ++ "package:flutter/material.dart" ++ "'") ++ ";\n" := by decide
  have ui : "import 'dart:ui';\n" = "import " ++ ("'" ++ "dart:ui" ++ "'") ++ ";\n" := by decide
  have imports : lexis.Spells ("import 'package:flutter/material.dart';\n" ++
      if needsUi then "import 'dart:ui';\n" else "") [] := by
    rw [material, ui]
    refine .append (spells_import (within_chars rfl)) ?_
    split
    · exact spells_import (within_chars rfl)
    · exact .nil
  have main := imports.before (within_chars rfl : Within isCodeChar
    "\nvoid main() \x7b\n  runApp(const MyApp());\n\x7d\n\n")
  refine .before (.before (.before (.before main ?_) ?_) ?_) ?_ <;> exact within_chars rfl

theorem within_typeName (built : Design.build s host roots = .ok forest) :
    ∀ name ∈ Design.typeNames forest, Within isCodeChar (className name) := by
  intro name member
  exact within_append.mpr
    ⟨Text.within_of_isPlain (Design.isPlain_of_mem_typeNames built member), within_chars rfl⟩

theorem spells_app (built : Design.build s host roots = .ok forest) :
    lexis.Spells (app t forest)
      (Design.wordingOf t.showLayerNames (Node.arrangedAll forest)) := by
  have names := within_typeName built
  have bodies := InTurn.flatMap (P := lexis.Spells) (g := fun n =>
      (widget t.showLayerNames none n).render 4) fun n member =>
    (holds_ofBuild built t.showLayerNames n member).render 4
  have length : (Design.typeNames forest).length =
      (forest.map fun n => (widget t.showLayerNames none n).render 4).length := by
    rw [Design.length_typeNames, List.length_map]
  have uses : InTurn lexis.Spells ((Design.typeNames forest).map useLine) [] := by
    refine .none (List.forall_mem_map.mpr fun name member => .code ?_)
    exact within_append.mpr
      ⟨within_append.mpr ⟨within_chars rfl, names name member⟩, within_chars rfl⟩
  have classes := bodies.zipWith (Q := lexis.Spells) (f := widgetClass) length ?around
  case around =>
    intro name member body own spells
    have head : Within isCodeChar ("\nclass " ++ className name ++
        " extends StatelessWidget \x7b\n" ++ "  const " ++ className name ++
        "(\x7bsuper.key\x7d);\n\n" ++ "  @override\n  Widget build(BuildContext context) \x7b\n" ++
        "    return ") := by
      simp only [within_append, names name member, and_true]
      and_intros <;> exact within_chars rfl
    exact .before (.after head spells) (within_chars rfl)
  rw [Design.wordingOf_arrangedAll]
  have page := Spells.append (spells_appHead (listBlurs forest)) (.join uses)
  exact .append (.before page (within_chars rfl)) (.join classes)

theorem spells_code (built : Design.build s host roots = .ok forest) :
    lexis.Spells (code t forest) (Design.wordingOf t.showLayerNames (Node.arrangedAll forest)) := by
  unfold code
  split
  · exact spells_snippet built
  · exact spells_app built

end

/-- The definitions of text styles have the families as their words. -/
theorem spells_textStyles (forest : List Node) :
    lexis.Spells (textStyles (Design.TextGroup.ofForest forest))
      (Design.familiesOf (Design.TextGroup.ofForest forest)) := by
  rw [Design.familiesOf, List.map_eq_flatMap]
  refine .intercalate (within_chars rfl) (.flatMap fun g member => ?_)
  have name : Within isCodeChar (Text.camel g.name) := Text.within_of_isPlain
    (Text.isPlain_of_mem_camel (Design.TextGroup.isSnake_name member).isPiece_of_mem_words)
  have head : Within isCodeChar ("final " ++ Text.camel g.name ++ " = ") :=
    within_append.mpr ⟨within_append.mpr ⟨within_chars rfl, name⟩, within_chars rfl⟩
  have style := holds_call (within_chars rfl : Within isCodeChar "TextStyle")
    (inTurn_textStyleArgs g.typography)
  exact .before (.after head (style.render 0)) (within_chars rfl)

end Handoff.Dart
