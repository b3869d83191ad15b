import Mathlib.Data.List.Forall2
import Handoff.Proofs.Design.Correspondence

/-!
What a design takes over from the paints and effects of a scene, and what it says of the rest.

`Paint.Becomes` and `Effect.Becomes` list the counterparts there are, `Paint.Refused` and
`Effect.Refused` the reasons why there is none; which of the two applies is decided by
`Paint.isDrawable` and `Effect.isDrawable`.  A result that keeps to these is an `Answer`, and
a list of answers is `Rendered`: the counterparts stand in the order of what they were made
from, and whatever has none is warned of.

The main statement is `Design.reports_of_build`: of every node of every design, fills, strokes
and effects are rendered in this sense, the warnings standing under the id of the node.
-/

namespace Handoff

open Decimal (clamp larger narrow)

namespace Scene

/-! ## Paints and effects -/

/-- Whether a design has a counterpart for a paint. -/
def Paint.isDrawable (p : Paint) : Bool :=
  match p.paintType with
  | .solid | .image => true
  | .gradientLinear => !p.gradientStops.isEmpty
  | _ => false

/-- Whether a design has a counterpart for an effect. -/
def Effect.isDrawable (e : Effect) : Bool :=
  match e.effectType with
  | .dropShadow | .innerShadow | .layerBlur | .backgroundBlur => true
  | _ => false

/-- The counterpart of a paint on a node of the given size. -/
inductive Paint.Becomes (s : Settings) (width height : Float) (p : Paint) : Design.Paint → Prop
  | color : p.paintType = .solid → Becomes s width height p
      ⟨.solid (s.colorRef ((p.color.getD .black).withOpacity (narrow p.unitOpacity))),
        p.unitOpacity, p.blendMode.toDesign⟩
  | gradient : p.paintType = .gradientLinear → p.gradientStops ≠ [] → Becomes s width height p
      ⟨.linearGradient (p.angle width height) (p.gradientStops.map fun stop =>
          ⟨clamp stop.position 0.0 1.0,
            s.colorRef (stop.color.withOpacity (narrow p.unitOpacity))⟩),
        p.unitOpacity, p.blendMode.toDesign⟩
  | image : p.paintType = .image → Becomes s width height p
      ⟨.image (p.imageHash.getD "") p.scaleMode.toDesign, p.unitOpacity, p.blendMode.toDesign⟩

/-- Why a paint has no counterpart. -/
inductive Paint.Refused (p : Paint) : Reason → Prop
  | withoutStops : p.paintType = .gradientLinear → p.gradientStops = [] →
      Refused p .gradientWithoutStops
  | radial : p.paintType = .gradientRadial → Refused p .radialGradient
  | angular : p.paintType = .gradientAngular → Refused p .angularGradient
  | diamond : p.paintType = .gradientDiamond → Refused p .diamondGradient
  | video : p.paintType = .video → Refused p .videoFill
  | unknown : p.paintType = .unknown → Refused p .unknownPaint

/-- The counterpart of an effect. -/
inductive Effect.Becomes (s : Settings) (e : Effect) : Design.Effect → Prop
  | dropShadow : e.effectType = .dropShadow → Becomes s e (.dropShadow (e.shadow s))
  | innerShadow : e.effectType = .innerShadow → Becomes s e (.innerShadow (e.shadow s))
  | layerBlur : e.effectType = .layerBlur → Becomes s e (.layerBlur (larger e.radius 0.0))
  | backgroundBlur : e.effectType = .backgroundBlur →
      Becomes s e (.backgroundBlur (larger e.radius 0.0))

/-- Why an effect has no counterpart. -/
inductive Effect.Refused (e : Effect) : Reason → Prop
  | noise : e.effectType = .noise → Refused e .noiseEffect
  | texture : e.effectType = .texture → Refused e .textureEffect
  | unknown : e.effectType = .unknown → Refused e .unknownEffect

/-! ## Answers -/

section

variable {α β : Type} {Becomes : α → β → Prop} {Refused : α → Reason → Prop}
  {drawable : α → Bool}

/-- A result gives the counterpart of what has one, and the reason against all else. -/
def Answer (drawable : Bool) (Becomes : β → Prop) (Refused : Reason → Prop) :
    Except Reason β → Prop
  | .ok b => drawable = true ∧ Becomes b
  | .error reason => drawable = false ∧ Refused reason

/-- Of all that is shown, what is drawable has its counterparts in order, and what is not has
a reason that is warned of. -/
structure Rendered (drawable : α → Bool) (Becomes : α → β → Prop) (Refused : α → Reason → Prop)
    (Warned : Reason → Prop) (shown : List α) (made : List β) : Prop where
  made : List.Forall₂ Becomes (shown.filter drawable) made
  missing : ∀ a ∈ shown, drawable a = false → ∃ reason, Refused a reason ∧ Warned reason

/-- The counterparts stand in the order of what has one. -/
theorem forall₂_counterparts {f : α → Except Reason β}
    (answer : ∀ a, Answer (drawable a) (Becomes a) (Refused a) (f a)) (items : List α) :
    List.Forall₂ Becomes (items.filter drawable) (counterparts (items.map f)) := by
  unfold counterparts
  induction items with
  | nil => exact .nil
  | cons a rest ih =>
      have first := answer a
      cases result : f a with
      | ok b =>
          rw [result] at first
          rw [List.filter_cons_of_pos first.1, List.map_cons, result]
          exact .cons first.2 ih
      | error reason =>
          rw [result] at first
          rw [List.filter_cons_of_neg (Bool.eq_false_iff.mp first.1), List.map_cons, result]
          exact ih

/-- Nothing is without a counterpart and without a reason. -/
theorem exists_mem_reasons {f : α → Except Reason β}
    (answer : ∀ a, Answer (drawable a) (Becomes a) (Refused a) (f a)) {items : List α} {a : α}
    (member : a ∈ items) (undrawable : drawable a = false) :
    ∃ reason ∈ reasons (items.map f), Refused a reason := by
  have own := answer a
  cases result : f a with
  | ok b =>
      rw [result] at own
      cases undrawable.symm.trans own.1
  | error reason =>
      rw [result] at own
      refine ⟨reason, List.mem_filterMap.mpr ⟨f a, List.mem_map_of_mem member, ?_⟩, own.2⟩
      rw [result]

/-- Answers render what is shown if their reasons are warned of. -/
theorem rendered_of_answers {f : α → Except Reason β} {Warned : Reason → Prop} {shown : List α}
    (answer : ∀ a, Answer (drawable a) (Becomes a) (Refused a) (f a))
    (warned : ∀ reason ∈ reasons (shown.map f), Warned reason) :
    Rendered drawable Becomes Refused Warned shown (counterparts (shown.map f)) where
  made := forall₂_counterparts answer shown
  missing := by
    intro a member undrawable
    obtain ⟨reason, raised, refused⟩ := exists_mem_reasons answer member undrawable
    exact ⟨reason, refused, warned reason raised⟩

end

theorem Paint.answer_toDesign (s : Settings) (width height : Float) (p : Paint) :
    Answer p.isDrawable (p.Becomes s width height) p.Refused (p.toDesign s width height) := by
  unfold Paint.toDesign Paint.toFill
  cases type : p.paintType with
  | solid => exact ⟨by rw [isDrawable, type], .color type⟩
  | image => exact ⟨by rw [isDrawable, type], .image type⟩
  | gradientLinear =>
      cases stops : p.gradientStops with
      | nil => exact ⟨by rw [isDrawable, type, stops]; rfl, .withoutStops type stops⟩
      | cons stop rest =>
          refine ⟨by rw [isDrawable, type, stops]; rfl, ?_⟩
          rw [← stops]
          exact .gradient type (by rw [stops]; exact List.cons_ne_nil stop rest)
  | gradientRadial => exact ⟨by rw [isDrawable, type], .radial type⟩
  | gradientAngular => exact ⟨by rw [isDrawable, type], .angular type⟩
  | gradientDiamond => exact ⟨by rw [isDrawable, type], .diamond type⟩
  | video => exact ⟨by rw [isDrawable, type], .video type⟩
  | unknown => exact ⟨by rw [isDrawable, type], .unknown type⟩

theorem Effect.answer_toDesign (s : Settings) (e : Effect) :
    Answer e.isDrawable (e.Becomes s) e.Refused (e.toDesign s) := by
  unfold Effect.toDesign
  cases type : e.effectType with
  | dropShadow => exact ⟨by rw [isDrawable, type], .dropShadow type⟩
  | innerShadow => exact ⟨by rw [isDrawable, type], .innerShadow type⟩
  | layerBlur => exact ⟨by rw [isDrawable, type], .layerBlur type⟩
  | backgroundBlur => exact ⟨by rw [isDrawable, type], .backgroundBlur type⟩
  | noise => exact ⟨by rw [isDrawable, type], .noise type⟩
  | texture => exact ⟨by rw [isDrawable, type], .texture type⟩
  | unknown => exact ⟨by rw [isDrawable, type], .unknown type⟩

/-! ## Layers -/

/-- The fills that show. -/
def Layer.shownFills (l : Layer) : List Paint :=
  l.fills.filter fun p => p.visible && p.opacity > 0.0

/-- The strokes that show; without any weight none does. -/
def Layer.shownStrokes (l : Layer) : List Paint :=
  if l.strokeWeight > 0.0 then l.strokes.filter fun p => p.visible && p.opacity > 0.0 else []

/-- The effects that show. -/
def Layer.shownEffects (l : Layer) : List Effect :=
  l.effects.filter (·.visible)

theorem Layer.fillResults_eq (s : Settings) (l : Layer) :
    l.fillResults s = l.shownFills.map (·.toDesign s l.width l.height) := rfl

theorem Layer.strokeResults_eq (s : Settings) (l : Layer) :
    l.strokeResults s = l.shownStrokes.map (·.toDesign s l.width l.height) := by
  unfold strokeResults shownStrokes
  split <;> rfl

theorem Layer.effectResults_eq (s : Settings) (l : Layer) :
    l.effectResults s = l.shownEffects.map (·.toDesign s) := rfl

/-- A style renders the fills, strokes and effects of its layer. -/
structure Layer.StyledBy (s : Settings) (Warned : Reason → Prop) (l : Layer)
    (style : Design.Style) : Prop where
  fills : Rendered Paint.isDrawable (Paint.Becomes s l.width l.height) Paint.Refused Warned
    l.shownFills style.fills
  strokes : Rendered Paint.isDrawable (Paint.Becomes s l.width l.height) Paint.Refused Warned
    l.shownStrokes style.strokes
  effects : Rendered Effect.isDrawable (Effect.Becomes s) Effect.Refused Warned
    l.shownEffects style.effects

theorem Layer.styledBy_style {s : Settings} {Warned : Reason → Prop} {l : Layer}
    (kind : Design.Kind) (warned : ∀ reason ∈ l.refusals s, Warned reason) :
    l.StyledBy s Warned (l.style s kind) := by
  have raised : ∀ reason, reason ∈ reasons (l.fillResults s) ∨
      reason ∈ reasons (l.strokeResults s) ∨ reason ∈ reasons (l.effectResults s) →
      Warned reason := by
    intro reason somewhere
    refine warned reason ?_
    simpa only [refusals, List.mem_append, or_assoc] using somewhere
  rw [l.fillResults_eq s, l.strokeResults_eq s, l.effectResults_eq s] at raised
  constructor
  · exact rendered_of_answers (Paint.answer_toDesign s l.width l.height)
      fun reason member => raised reason (.inl member)
  · rw [style, l.strokeResults_eq s]
    exact rendered_of_answers (Paint.answer_toDesign s l.width l.height)
      fun reason member => raised reason (.inr (.inl member))
  · exact rendered_of_answers (Effect.answer_toDesign s)
      fun reason member => raised reason (.inr (.inr member))

end Scene

/-! ## Nodes -/

namespace Design

open Scene (Layer)

/-- A box renders its layer, and the warnings tell under its id what it leaves out: parts of
the layer, or the layer as a whole if its type has no counterpart. -/
structure Box.Reports (s : Settings) (warnings : List Warning) (layer : Layer) (box : Box) :
    Prop where
  style : layer.kind?.isSome = true →
    layer.StyledBy s (fun reason => ⟨box.id, reason⟩ ∈ warnings) box.style
  unsupported : layer.kind? = none →
    ⟨box.id, .unsupportedType layer.nodeType⟩ ∈ warnings

end Design

theorem Outline.mem_warnings {s : Settings} {outlines : List Outline} {o : Outline}
    {reason : Reason} (member : o ∈ preorderList outlines) (refused : reason ∈ o.refusals s) :
    ⟨o.id, reason⟩ ∈ warnings s outlines :=
  List.mem_flatMap.mpr ⟨o, member, List.mem_map_of_mem refused⟩

namespace Design

/-- The box of an outline reports what it leaves out, as long as all warnings about the outline
are there.  Its layout plays no part. -/
theorem reports_box {s : Settings} {warnings : List Warning} {o : Outline}
    (warned : ∀ reason ∈ o.refusals s, ⟨o.id, reason⟩ ∈ warnings) (around : Surroundings)
    (name : String) : Box.Reports s warnings o.layer (o.box s around name) where
  style := by
    intro supported
    obtain ⟨kind, known⟩ := Option.isSome_iff_exists.mp supported
    have refusals : o.refusals s = o.layer.refusals s := by rw [Outline.refusals, known]
    have style : (o.box s around name).style = o.layer.style s kind := by
      rw [Outline.box, Outline.style, known]
    rw [style]
    exact Scene.Layer.styledBy_style kind (refusals ▸ warned)
  unsupported := by
    intro unknown
    refine warned _ ?_
    rw [Outline.refusals, unknown]
    exact List.mem_singleton_self _

/-- Every node of a design renders what shows on its layer, and what of it is left out is
warned of under the id of the node. -/
theorem reports_of_build {s : Settings} {host : Option Scene.Node} {roots : List Scene.Node}
    {forest : List Node} (built : Design.build s host roots = .ok forest) :
    Node.FollowsAll
      (fun _ layer box => box.Reports s (Warning.distinct (warningsOf s roots)) layer) none
      (Scene.shownForest roots) forest := by
  obtain ⟨rfl, -⟩ := build_eq_ok built
  have warned : ∀ o ∈ Outline.preorderList (Outline.ofRoots roots), ∀ reason ∈ o.refusals s,
      ⟨o.id, reason⟩ ∈ Warning.distinct (warningsOf s roots) :=
    fun o member reason refused => Warning.mem_distinct.mpr (Outline.mem_warnings member refused)
  refine followsAll_ofOutlines s host roots .empty (fun o member name => ?_)
    fun o member above name => reports_box (warned o member) _ name
  have inside := reports_box (warned o member) (.ofParent s host) name
  exact ⟨inside.style, inside.unsupported⟩

/-- A poster of which a radial gradient, a gradient without stops and some noise are left out,
with a note on it of a type that has no counterpart. -/
theorem reports_of_build_poster :
    let note : Scene.Node := .mk { id := "1:2", nodeType := "STICKY", fills := [{}] } []
    let poster : Scene.Node :=
      .mk { id := "1:1", nodeType := "FRAME", strokeWeight := 2.0,
            fills := [{ paintType := .gradientRadial }, { visible := false }, {}],
            strokes := [{ paintType := .gradientLinear }],
            effects := [{ effectType := .noise }, { effectType := .layerBlur }] } [note]
    let s := Settings.defaults
    Design.build s none [poster] = .ok (ofSelection s none [poster] .empty).1 ∧
      Node.FollowsAll
        (fun _ layer box => box.Reports s (Warning.distinct (warningsOf s [poster])) layer) none
        (Scene.shownForest [poster]) (ofSelection s none [poster] .empty).1 :=
  ⟨rfl, reports_of_build rfl⟩

end Design

end Handoff
