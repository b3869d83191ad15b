import Handoff.Proofs.Swift.Printing
import Handoff.Proofs.Swift.Wording

/-!
The lines that the code of a view has.

Everything that a view is made by is `Visible`: it is on one line and ends with something visible,
mostly with a bracket.  Modifiers are so too but for the fills under a container, which may have
several lines.  So all lines of the code of a design have something visible at their end
(`neat_view`), whatever the user writes: texts of users are in literals, or in comments if layers
are named.

The body of the view type of a root is the view of the root as it is printed on its own, indented by
eight.  Indenting treats some lines differently from others, but the code of a view has none of
those as long as it has no comments (`neat_view_of_build`): so the body is the code with eight
spaces in front of every line, and this is how the printer writes it at an indent of eight
(`bodiesShifted_of_build`).  With names of layers this does not hold: the name of a layer may end
with a carriage return, which indenting takes away.
-/

namespace Handoff.Swift

open Decimal (plain oneLine_plain)
open Design (Box Node ColorRef)
open Text (OneLine oneLine_append FirmLines Firm)
open View (over_leaf over_group)

/-! ## Visible texts -/

/-- A text of one line that ends with something visible. -/
def Visible (text : String) : Prop := OneLine text ∧ Firm text.toList

instance (text : String) : Decidable (Visible text) :=
  inferInstanceAs (Decidable (OneLine text ∧ Firm text.toList))

variable {a b text : String}

theorem Visible.after (line : OneLine a) (visible : Visible b) : Visible (a ++ b) := by
  refine ⟨oneLine_append.mpr ⟨line, visible.1⟩, ?_⟩
  rw [String.toList_append]
  exact Text.firm_append visible.2

theorem Visible.firmLines (visible : Visible text) : FirmLines text :=
  .of_oneLine visible.1 visible.2

/-- What stands in brackets after a name is visible. -/
theorem visible_bracketed (line : OneLine text) : Visible (text ++ ")") :=
  .after line (by decide)

/-- Modifiers each of which is visible. -/
def AllVisible (modifiers : List String) : Prop := ∀ m ∈ modifiers, Visible m

instance (modifiers : List String) : Decidable (AllVisible modifiers) :=
  inferInstanceAs (Decidable (∀ m ∈ modifiers, Visible m))

section

variable {modifiers later : List String}

theorem allVisible_nil : AllVisible [] :=
  List.forall_mem_nil _

theorem allVisible_singleton : AllVisible [text] ↔ Visible text :=
  List.forall_mem_singleton

theorem allVisible_append :
    AllVisible (modifiers ++ later) ↔ AllVisible modifiers ∧ AllVisible later :=
  List.forall_mem_append

theorem allVisible_ite {c : Prop} [Decidable c] (visible : AllVisible modifiers) :
    AllVisible (if c then modifiers else []) := by
  split
  · exact visible
  · exact allVisible_nil

end

/-! ## Values -/

variable {b : Box} {n : Node}

theorem oneLine_literal (s : String) : OneLine (literal s) := by
  simp only [literal, oneLine_append, Text.oneLine_swift]
  decide

theorem oneLine_placeholder (b : Box) : OneLine (placeholder b) := by
  have own : OneLine b.placeholder := (Css.dense_placeholder b).not_mem (by decide)
  simp only [placeholder, oneLine_append, own]
  decide

theorem oneLine_color {c : ColorRef} (named : c.Named) : OneLine (color c) := by
  have channel : ∀ x, OneLine (component x) := fun x => Decimal.oneLine_atMost 3 _
  unfold color
  dsimp only
  split
  · rename_i p called
    have name : OneLine p.name := (named p called).not_mem (by decide)
    split
    · exact name
    · simp only [oneLine_append, name, oneLine_plain, true_and, and_true]
      decide
  · split
    all_goals
      simp only [oneLine_append, channel, oneLine_plain, and_true]
      decide

/-- A color that is not called by the empty name can be seen. -/
theorem visible_color {c : ColorRef} (named : c.Named) (spelled : c.Spelled) :
    Visible (color c) := by
  refine ⟨oneLine_color named, ?_⟩
  have bracket : Firm ")".toList := by decide
  unfold color
  dsimp only
  split
  · rename_i p called
    split
    · exact Text.firm_of_word (named p called) (spelled p called)
    · rw [String.toList_append]
      exact Text.firm_append bracket
  · rw [String.toList_append]
    refine Text.firm_append ?_
    split
    · exact bracket
    · rw [String.toList_append]
      exact Text.firm_append bracket

theorem oneLine_unitPoint (x y : Float) : OneLine (unitPoint x y) := by
  have table : ∀ entry ∈ pointNames, OneLine entry.2 := by decide
  unfold unitPoint
  dsimp only
  split
  · rename_i name found
    split at found
    · obtain ⟨before, after, listed, -⟩ := List.lookup_eq_some_iff.mp found
      exact table (_, name) (listed ▸ List.mem_append_right before List.mem_cons_self)
    · cases found
  · simp only [oneLine_append, oneLine_plain, and_true]
    decide

theorem oneLine_linearGradient {angle : Float} {stops : List Design.GradientStop}
    (named : ∀ s ∈ stops, s.color.Named) : OneLine (linearGradient angle stops) := by
  have each : ∀ text ∈ stops.map stop, OneLine text := by
    refine List.forall_mem_map.mpr fun s member => ?_
    unfold stop
    simp only [oneLine_append, oneLine_color (named s member), oneLine_plain, and_true]
    decide
  have joined : OneLine (", ".intercalate (stops.map stop)) :=
    Text.oneLine_intercalate (by decide) each
  unfold linearGradient
  dsimp only
  simp only [oneLine_append, joined, oneLine_unitPoint, and_true]
  decide

theorem visible_shape (b : Box) : Visible (shape b) := by
  unfold shape
  split
  · decide
  · split
    · decide
    all_goals
      refine visible_bracketed ?_
      simp only [oneLine_append, oneLine_plain, and_true]
      decide

theorem oneLine_fillStyle {fill : Design.Fill} (named : fill.Named) :
    OneLine (fillStyle b fill) := by
  have paint : OneLine ("ImagePaint(image: Image(" ++ placeholder b ++ "))") := by
    simp only [oneLine_append, oneLine_placeholder, and_true]
    decide
  cases fill with
  | solid c => exact oneLine_color named.color
  | linearGradient angle stops => exact oneLine_linearGradient named.stops
  | image hash scaleMode => exact paint

/-- The modifiers of a typography. -/
theorem allVisible_typography (t : Design.Typography) : AllVisible (typography t) := by
  have weight : OneLine (fontWeight t.weight) := by
    unfold fontWeight
    repeat' split
    all_goals decide
  simp only [typography, allVisible_append]
  refine ⟨⟨⟨⟨?font, ?italic⟩, ?height⟩, ?spacing⟩, ?decoration⟩
  case font =>
    refine allVisible_singleton.mpr (.after ?_ (by decide))
    simp only [oneLine_append, oneLine_literal, oneLine_plain, weight, and_true]
    decide
  case italic => exact allVisible_ite (by decide)
  case height =>
    split
    · refine allVisible_ite (allVisible_singleton.mpr (visible_bracketed ?_))
      simp only [oneLine_append, oneLine_plain, and_true]
      decide
    · exact allVisible_nil
  case spacing =>
    refine allVisible_ite (allVisible_singleton.mpr (visible_bracketed ?_))
    simp only [oneLine_append, oneLine_plain, and_true]
    decide
  case decoration => cases t.decoration <;> decide

/-! ## Views -/

/-- A view that is made by visible texts, all lines of whose modifiers are firm; it has comments,
each of one line, only if layers are named. -/
abbrev View.Neat (names : Bool) : View → Prop :=
  View.Over (fun comment => names = true ∧ OneLine comment) Visible FirmLines

variable {names : Bool} {views : List View} {v : View} {modifiers : List String}

theorem View.Neat.modified_visible (neat : v.Neat names) (visible : AllVisible modifiers) :
    (v.modified modifiers).Neat names :=
  View.Over.modified neat fun m member => (visible m member).firmLines

theorem neat_textView (named : b.Named) (t : Design.TextStyle) : (textView b t).Neat names := by
  have fill : AllVisible (textFill b.style.fills) := by
    unfold textFill
    split
    · rename_i c top
      refine allVisible_singleton.mpr (visible_bracketed ?_)
      simp only [oneLine_append, oneLine_color (named.lastFill top).color, and_true]
      decide
    · rename_i angle stops top
      refine allVisible_singleton.mpr (visible_bracketed ?_)
      simp only [oneLine_append, oneLine_linearGradient (named.lastFill top).stops, and_true]
      decide
    · exact allVisible_nil
    · exact allVisible_nil
  have align : AllVisible (textAlign t.typography.align) := by
    cases t.typography.align <;> decide
  have head : Visible ("Text(" ++ literal (t.typography.textCase.apply t.characters) ++ ")") := by
    refine visible_bracketed ?_
    simp only [oneLine_append, oneLine_literal, and_true]
    decide
  exact View.Neat.modified_visible (over_leaf.mpr head) (allVisible_append.mpr
    ⟨allVisible_append.mpr ⟨allVisible_typography t.typography, fill⟩, align⟩)

theorem neat_imageView (b : Box) : (imageView b).Neat names := by
  refine over_leaf.mpr (.after ?_ (by decide))
  simp only [oneLine_append, oneLine_placeholder, and_true]
  decide

theorem neat_lineView (named : b.Named) : (lineView b).Neat names := by
  refine View.Neat.modified_visible (over_leaf.mpr (by decide))
    (List.forall_mem_map.mpr fun c member => visible_bracketed ?_)
  simp only [oneLine_append, oneLine_color (named.topStroke (Option.mem_toList.mp member)), and_true]
  decide

theorem neat_shapeView (named : b.Named) : (shapeView b).Neat names := by
  refine View.Neat.modified_visible (over_leaf.mpr (visible_shape b))
    (List.forall_mem_map.mpr fun p member => visible_bracketed ?_)
  have last := List.mem_of_getLast? (Option.mem_toList.mp member)
  simp only [oneLine_append, oneLine_fillStyle (named.fill last), and_true]
  decide

/-! ## Stacks -/

theorem forall_mem_intersperse {α : Type} {P : α → Prop} {separator : α} {items : List α}
    (between : P separator) (each : ∀ a ∈ items, P a) : ∀ a ∈ items.intersperse separator, P a := by
  induction items with
  | nil => exact each
  | cons first rest ih =>
      obtain ⟨own, others⟩ := List.forall_mem_cons.mp each
      cases rest with
      | nil => exact each
      | cons next rest =>
          rw [List.intersperse_cons_cons]
          exact List.forall_mem_cons.mpr ⟨own, List.forall_mem_cons.mpr ⟨between, ih others⟩⟩

theorem neat_stackView (f : Design.Flow) (neat : ∀ v ∈ views, v.Neat names) :
    (stackView f views).Neat names := by
  have alignment : OneLine (stackAlignment f.direction f.alignment) := by
    cases f.direction <;> cases f.alignment <;> decide
  have name : OneLine (stackName f.direction) := by
    cases f.direction <;> decide
  have head : ∀ spacing, OneLine spacing → Visible (stackHead f spacing) := by
    intro spacing line
    refine visible_bracketed ?_
    simp only [oneLine_append, name, alignment, line, and_true, true_and]
    decide
  have space : spacer.Neat names := over_leaf.mpr (by decide)
  unfold stackView
  split
  · exact over_group.mpr ⟨head "0" (by decide), forall_mem_intersperse space neat⟩
  · exact over_group.mpr ⟨head _ (oneLine_plain _), neat⟩

theorem neat_layered (neat : ∀ v ∈ views, v.Neat names) : (layered views).Neat names :=
  over_group.mpr ⟨by decide, neat⟩

theorem neat_containerView (b : Box) {made : List (Node × View)}
    (neat : ∀ m ∈ made, m.2.Neat names) : (containerView b made).Neat names := by
  have part : ∀ absolute, ∀ v ∈ Node.placedAs absolute made, v.Neat names := by
    intro absolute v member
    obtain ⟨m, among, rfl⟩ := List.mem_map.mp member
    exact neat m (List.mem_of_mem_filter among)
  unfold containerView
  split
  · exact over_leaf.mpr (by decide)
  · split
    · rename_i f _
      have line := neat_stackView f (part false)
      dsimp only
      split
      · exact line
      · exact neat_layered (List.forall_mem_cons.mpr ⟨line, part true⟩)
    · exact neat_layered (List.forall_mem_map.mpr neat)

theorem neat_base (named : n.box.Named) {made : List (Node × View)}
    (neat : ∀ m ∈ made, m.2.Neat names) : (base n made).Neat names := by
  unfold base
  split
  · exact neat_textView named _
  · split
    · exact neat_imageView n.box
    · split
      · exact neat_lineView named
      · split
        · exact neat_shapeView named
        · exact neat_containerView n.box neat

/-! ## Modifiers -/

theorem allVisible_padding (p : Design.Padding) : AllVisible (padding p) := by
  have along : ∀ {edges} v, OneLine edges → AllVisible (paddingAlong edges v) := by
    intro edges v line
    refine allVisible_ite (allVisible_singleton.mpr (visible_bracketed ?_))
    simp only [oneLine_append, line, oneLine_plain, and_true]
    decide
  unfold padding
  split
  · exact allVisible_nil
  · split
    · refine allVisible_singleton.mpr (visible_bracketed ?_)
      simp only [oneLine_append, oneLine_plain, and_true]
      decide
    · split
      · exact allVisible_append.mpr ⟨along _ (by decide), along _ (by decide)⟩
      · refine allVisible_singleton.mpr (.after ?_ (by decide))
        simp only [oneLine_append, oneLine_plain, and_true]
        decide

theorem oneLine_frameArgs {flexible : Bool} {plainName boundName : String}
    (line : OneLine plainName) (bound : OneLine boundName) (extent : Design.Extent) :
    ∀ text ∈ frameArgs flexible plainName boundName extent, OneLine text := by
  have words : OneLine "min" ∧ OneLine "max" ∧ OneLine ": " ∧ OneLine ": .infinity" := by decide
  obtain ⟨least, greatest, colon, endless⟩ := words
  unfold frameArgs
  cases extent with
  | hug => exact List.forall_mem_nil _
  | fill => simp only [List.forall_mem_singleton, oneLine_append, greatest, bound, endless, and_self]
  | fixed v =>
      dsimp only
      split <;>
        simp only [List.mem_cons, List.not_mem_nil, or_false, forall_eq_or_imp, forall_eq,
          oneLine_append, least, greatest, line, bound, colon, oneLine_plain, and_self]

theorem allVisible_frame (n : Node) : AllVisible (frame n) := by
  have alignment : ∀ name, frameAlignment? n.box = some name → OneLine name := by
    intro name present
    unfold frameAlignment? at present
    split at present <;> cases present <;> decide
  unfold frame
  dsimp only
  split
  · exact allVisible_nil
  · refine allVisible_singleton.mpr (visible_bracketed (oneLine_append.mpr ⟨by decide, ?_⟩))
    refine Text.oneLine_intercalate (by decide) (List.forall_mem_append.mpr
      ⟨List.forall_mem_append.mpr ⟨oneLine_frameArgs (by decide) (by decide) _,
        oneLine_frameArgs (by decide) (by decide) _⟩,
        List.forall_mem_map.mpr fun name member => oneLine_append.mpr ⟨by decide, ?_⟩⟩)
    have present := Option.mem_toList.mp member
    split at present
    · cases present
    · exact alignment name present

theorem allVisible_clipShape (b : Box) : AllVisible ["clipShape(" ++ shape b ++ ")"] := by
  refine allVisible_singleton.mpr (visible_bracketed ?_)
  simp only [oneLine_append, (visible_shape b).1, and_true]
  decide

theorem neat_fillLayer (named : b.Named) (spelled : ∀ c ∈ b.style.colorRefs, c.Spelled)
    {p : Design.Paint} (member : p ∈ b.style.fills) : (fillLayer b p).Neat names := by
  have outline : (View.leaf (shape b)).Neat names := over_leaf.mpr (visible_shape b)
  have named := named.fill member
  unfold fillLayer
  split
  · rename_i c fill
    rw [fill] at named
    split
    · have paint : p ∈ b.style.paints := List.mem_append_left _ member
      have own : c ∈ p.fill.colorRefs := by
        rw [fill]
        exact List.mem_singleton_self c
      have among : c ∈ b.style.colorRefs :=
        List.mem_append_left _ (List.mem_flatMap.mpr ⟨p, paint, own⟩)
      exact over_leaf.mpr (visible_color named.color (spelled c among))
    · refine View.Neat.modified_visible outline (allVisible_singleton.mpr (visible_bracketed ?_))
      simp only [oneLine_append, oneLine_color named.color, and_true]
      decide
  · rename_i angle stops fill
    rw [fill] at named
    refine View.Neat.modified_visible outline (allVisible_singleton.mpr (visible_bracketed ?_))
    simp only [oneLine_append, oneLine_linearGradient named.stops, and_true]
    decide
  · split
    · exact neat_imageView b
    · exact View.Neat.modified_visible (neat_imageView b) (allVisible_clipShape b)

/-- The fills under a container may have several lines. -/
theorem firmLines_background (named : b.Named)
    (spelled : ∀ c ∈ b.style.colorRefs, c.Spelled) : ∀ m ∈ background b, FirmLines m := by
  have layer : ∀ p ∈ b.style.fills, (fillLayer b p).Neat false :=
    fun p member => neat_fillLayer named spelled member
  have around : ∀ {v : View}, v.Neat false →
      ∀ m ∈ ["background(" ++ v.render 0 ++ ")"], FirmLines m := by
    intro v neat
    have uncommented := View.Over.mono neat (fun _ absent => Bool.false_ne_true absent.1)
      (fun _ visible => visible) fun _ firm => firm
    refine List.forall_mem_singleton.mpr (FirmLines.before ?_ (by decide) (by decide))
    exact .after (by decide) (View.firmLines_render uncommented 0)
  unfold background
  split
  · exact List.forall_mem_nil _
  · rename_i single fills
    rw [fills] at layer
    exact around (layer single List.mem_cons_self)
  · exact around (over_group.mpr ⟨by decide, List.forall_mem_map.mpr layer⟩)

theorem allVisible_stroke (named : b.Named) : AllVisible (stroke b) := by
  have outline := (visible_shape b).1
  unfold stroke
  split
  · rename_i s text _ painted
    have paint : OneLine text := by
      obtain ⟨fill, top, made⟩ := Option.bind_eq_some_iff.mp painted
      have named := named.lastStroke top
      cases fill with
      | solid c =>
          cases made
          exact oneLine_color named.color
      | linearGradient angle stops =>
          cases made
          exact oneLine_linearGradient named.stops
      | image => cases made
    dsimp only
    split
    · refine allVisible_singleton.mpr (visible_bracketed ?_)
      simp only [oneLine_append, paint, outline, oneLine_plain, and_true, true_and]
      decide
    · refine allVisible_singleton.mpr (visible_bracketed ?_)
      simp only [oneLine_append, paint, outline, oneLine_plain, and_true, true_and]
      decide
    · refine allVisible_singleton.mpr (.after ?_ (by decide))
      simp only [oneLine_append, paint, outline, oneLine_plain, and_true, true_and]
      decide
  · exact allVisible_nil

theorem allVisible_effects (named : b.Named) : AllVisible (b.style.effects.flatMap effect) := by
  refine List.forall_mem_flatMap.mpr fun e member => ?_
  cases e with
  | dropShadow s =>
      refine allVisible_singleton.mpr (visible_bracketed ?_)
      simp only [oneLine_append, oneLine_color (named.effect member rfl), oneLine_plain, and_true]
      decide
  | layerBlur radius =>
      refine allVisible_singleton.mpr (visible_bracketed ?_)
      simp only [oneLine_append, oneLine_plain, and_true]
      decide
  | innerShadow | backgroundBlur => exact allVisible_nil

/-- Every line of the modifiers of a node ends with something visible. -/
theorem firmLines_modifiers (named : n.box.Named)
    (spelled : ∀ c ∈ n.box.style.colorRefs, c.Spelled) :
    ∀ m ∈ Swift.modifiers n, FirmLines m := by
  have firm : ∀ {modifiers : List String}, AllVisible modifiers → ∀ m ∈ modifiers, FirmLines m :=
    fun visible m member => (visible m member).firmLines
  have fills : ∀ m ∈ (if n.box.style.text.isNone && !isShape n && n.box.kind != .image then
      background n.box else []), FirmLines m := by
    split
    · exact firmLines_background named spelled
    · exact List.forall_mem_nil _
  have outline : AllVisible (if n.box.kind.isLine then [] else stroke n.box) := by
    split
    · exact allVisible_nil
    · exact allVisible_stroke named
  have faint : Visible ("opacity(" ++ plain n.box.style.opacity ++ ")") := by
    refine visible_bracketed ?_
    simp only [oneLine_append, oneLine_plain, and_true]
    decide
  have turned : Visible ("rotationEffect(.degrees(" ++ plain (-n.box.geometry.rotation) ++
      "), anchor: .topLeading)") := by
    refine .after ?_ (by decide)
    simp only [oneLine_append, oneLine_plain, and_true]
    decide
  have place : AllVisible (placement n.box.layout.placement) := by
    cases n.box.layout.placement with
    | absolute left top =>
        refine allVisible_singleton.mpr (visible_bracketed ?_)
        simp only [oneLine_append, oneLine_plain, and_true]
        decide
    | root | flow => exact allVisible_nil
  unfold Swift.modifiers
  dsimp only
  simp only [List.forall_mem_append]
  refine ⟨⟨⟨⟨⟨⟨⟨⟨firm ?_, firm (allVisible_frame n)⟩, fills⟩, firm outline⟩,
    firm (allVisible_ite (allVisible_clipShape n.box))⟩, firm (allVisible_effects named)⟩,
    firm (allVisible_ite (allVisible_singleton.mpr faint))⟩,
    firm (allVisible_ite (allVisible_singleton.mpr turned))⟩, firm place⟩
  split
  · exact allVisible_padding _
  · exact allVisible_nil

/-! ## Nodes -/

/-- Every line of the view of a node ends with something visible. -/
theorem neat_view (names : Bool) (forest : List Node) :
    (∀ n ∈ Node.preorderList forest, n.box.Named ∧ ∀ c ∈ n.box.style.colorRefs, c.Spelled) →
      ∀ n ∈ forest, (view names n).Neat names := by
  induction forest using Node.forestInduction with
  | nil => exact fun _ n member => nomatch member
  | cons box children rest below after =>
      intro called n member
      obtain ⟨⟨named, spelled⟩, inner, others⟩ := Node.forall_preorderList_mk_cons.mp called
      rcases List.mem_cons.mp member with rfl | later
      · rw [view, childViews_eq_map]
        have base := @neat_base (.mk box children) names named
          (children.map fun c => (c, view names c)) (List.forall_mem_map.mpr (below inner))
        have whole := View.Over.modified base (@firmLines_modifiers (.mk box children) named spelled)
        refine whole.commented fun label present => ⟨?_, oneLine_commentOf names box label present⟩
        unfold commentOf at present
        split at present
        · assumption
        · cases present
      · exact after others n later

section

variable {s : Settings} {host : Option Scene.Node} {roots : List Scene.Node} {forest : List Node}

theorem neat_view_of_build (built : Design.build s host roots = .ok forest) (names : Bool) :
    ∀ n ∈ forest, (view names n).Neat names :=
  neat_view names forest fun n member =>
    ⟨Design.named_of_build built n member, Design.spelled_of_build built n member⟩

end

end Handoff.Swift

/-! ## Views in an application -/

namespace Handoff.Swift

open Design (Node)
open Text (OneLine shifted splitChars)

/-- The view type of a root with its body as it is given. -/
def structWith (typeName body : String) : String :=
  "struct " ++ viewName typeName ++ ": View \x7b\n    var body: some View \x7b\n" ++ body ++
  "\n    \x7d\n\x7d\n\n"

/-- The bodies in an application are the views of the roots, shifted by eight. -/
structure BodiesShifted (t : Settings) (forest : List Node) : Prop where
  /-- Indenting puts eight spaces in front of every line. -/
  lines : ∀ n ∈ forest,
    splitChars '\n' (Text.indent 8 ((view t.showLayerNames n).render 0)).toList =
      (splitChars '\n' ((view t.showLayerNames n).render 0).toList).map
        (List.replicate 8 ' ' ++ ·)
  indented : ∀ n ∈ forest, Text.indent 8 ((view t.showLayerNames n).render 0) =
    shifted 8 ((view t.showLayerNames n).render 0)
  /-- So does the printer. -/
  printed : ∀ n ∈ forest,
    (view t.showLayerNames n).render 8 = shifted 8 ((view t.showLayerNames n).render 0)
  /-- The application is what the template makes of the views. -/
  rendered : Template.render? appTemplate (appData t forest) = some (app t forest)
  code : app t forest = "import SwiftUI\n\n" ++
    String.join ((Design.typeNames forest).zipWith structWith
      (forest.map fun n => (view t.showLayerNames n).render 8)) ++ contentHead ++
    String.join ((Design.typeNames forest).map useLine) ++ appFoot

variable {s t : Settings} {host : Option Scene.Node} {roots : List Scene.Node}
  {forest : List Node}

/-- Every line of the view of a root ends with something visible, unless layers are named. -/
theorem firmLines_of_build (built : Design.build s host roots = .ok forest)
    (unnamed : t.showLayerNames = false) :
    ∀ n ∈ forest, Text.FirmLines ((view t.showLayerNames n).render 0) := by
  intro n member
  have neat := neat_view_of_build built t.showLayerNames n member
  refine View.firmLines_render (View.Over.mono neat (fun _ named => ?_) (fun _ visible => visible)
    fun _ firm => firm) 0
  rw [unnamed] at named
  exact Bool.false_ne_true named.1

/-- The bodies of view types are the views of the roots shifted by eight, unless layers are named;
and any view that is made on single lines is shifted by as much as it is indented. -/
theorem bodiesShifted_of_build (built : Design.build s host roots = .ok forest)
    (unnamed : t.showLayerNames = false) : BodiesShifted t forest ∧
      ∀ v : View, v.Over OneLine OneLine (fun _ => True) →
        ∀ n, v.render n = shifted n (v.render 0) := by
  have moved : ∀ v : View, v.Over OneLine OneLine (fun _ => True) →
      ∀ n, v.render n = shifted n (v.render 0) := by
    intro v each n
    have added := View.render_add each n 0
    rwa [Nat.zero_add] at added
  have firm := firmLines_of_build built unnamed
  have indented : ∀ n ∈ forest, Text.indent 8 ((view t.showLayerNames n).render 0) =
      shifted 8 ((view t.showLayerNames n).render 0) :=
    fun n member => Text.indent_eq_shifted (firm n member) 8
  have printed : ∀ n ∈ forest,
      (view t.showLayerNames n).render 8 = shifted 8 ((view t.showLayerNames n).render 0) :=
    fun n member => moved _ (View.Over.mono (neat_view_of_build built t.showLayerNames n member)
      (fun _ named => named.2) (fun _ visible => visible.1) fun _ _ => trivial) 8
  refine ⟨⟨?lines, indented, printed, render_app t forest, ?code⟩, moved⟩
  case lines =>
    intro n member
    rw [indented n member, Text.splitChars_shifted]
  case code =>
    have bodies : (forest.map fun n => (view t.showLayerNames n).render 8) =
        (forest.map fun n => (view t.showLayerNames n).render 0).map (Text.indent 8) := by
      rw [List.map_map]
      exact List.map_congr_left fun n member =>
        (printed n member).trans (indented n member).symm
    rw [bodies, List.zipWith_map_right]
    unfold app
    rfl

/-- A card with two photos, which are on lines of their own. -/
theorem bodiesShifted_of_build_card :
    let photo : Scene.Paint := { paintType := .image, imageHash := some "a" }
    let card : Scene.Node := .mk
      { nodeType := "FRAME", width := 40.0, height := 20.0, fills := [photo, photo] } []
    let s := { Settings.defaults with framework := .swiftUI }
    let forest := (Design.ofSelection s none [card] .empty).1
    let clear := (View.leaf "Color.clear").modified ["background(ZStack \x7b\n\x7d)"]
    Design.build s none [card] = .ok forest ∧ s.showLayerNames = false ∧ BodiesShifted s forest ∧
      (∃ root, forest = [root] ∧ (view s.showLayerNames root).render 8 =
        "        Color.clear\n            .frame(width: 40, height: 20)\n" ++
        "            .background(ZStack \x7b\n" ++
        "                AsyncImage(url: URL(string: \"https://placehold.co/40x20\"))\n" ++
        "                AsyncImage(url: URL(string: \"https://placehold.co/40x20\"))\n" ++
        "            \x7d)") ∧
      clear.Over OneLine OneLine (fun _ => True) ∧ clear.render 8 = shifted 8 (clear.render 0) := by
  intro photo card s forest clear
  have built : Design.build s none [card] = .ok forest := rfl
  obtain ⟨bodies, moved⟩ := bodiesShifted_of_build (t := s) built rfl
  have single : clear.Over OneLine OneLine (fun _ => True) :=
    (View.over_leaf.mpr (by decide)).modified fun _ _ => trivial
  exact ⟨built, rfl, bodies, ⟨_, rfl, by decide +kernel⟩, single, moved clear single 8⟩

end Handoff.Swift
