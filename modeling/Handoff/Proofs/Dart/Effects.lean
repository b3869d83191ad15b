import Handoff.Proofs.Dart.Chain
import Handoff.Proofs.Reporting

/-!
What becomes of the effects of a node.

The shadows of a text are in its style and those of a box in its decoration, and a blur is a
widget around that of the node.  `Expr.shadows` and `Expr.blurs` read them off the chain of a
node.  For an inner shadow there is a warning.  The widgets of images and lines are made without a
look at shadows, so nothing is left of a drop shadow that one of them has (`LosesShadow`).

The main statement is `effectsKept_of_build`.
-/

namespace Handoff.Dart

open Design (Box Node Effect)
open Handoff.Dart.Expr (raw call list commented valuesOf given)

/-! ## Reading shadows and blurs -/

namespace Expr

/-- The items of an expression that is a list. -/
def items : Expr → List Expr
  | list items => items
  | _ => []

/-- What is listed for a name in a value. -/
def listedIn (label : String) : Expr → List Expr
  | call _ args => (valuesOf label args).flatMap items
  | _ => []

/-- The shadows of the calls of a node: those of a decoration, and those of the letters in a
style. -/
def shadows (e : Expr) : List Expr :=
  (e.given "decoration").flatMap (listedIn "boxShadow") ++
    (e.given "style").flatMap (listedIn "shadows")

/-- The name that a class which blurs is given the blur for. -/
def blurLabel? (name : String) : Option String :=
  if name = "ImageFiltered" then some "imageFilter"
  else if name = "BackdropFilter" then some "filter"
  else none

/-- The blurs of a call, each with the class that it is given to. -/
def blursOf (c : String × List Arg) : List (String × Expr) :=
  (blurLabel? c.1).toList.flatMap fun label => (valuesOf label c.2).map (c.1, ·)

/-- The blurs of the calls of a node, from the outermost on. -/
def blurs (e : Expr) : List (String × Expr) := e.chain.flatMap blursOf

theorem blurs_call (name : String) (args : List Arg) :
    (call name args).blurs = blursOf (name, args) ++ (valuesOf "child" args).flatMap blurs := by
  rw [blurs, chain_call, List.flatMap_cons, List.flatMap_assoc]
  rfl

/-- A list that is only given if there is something in it lists the same. -/
theorem flatMap_items_argList (label : String) (listed : List Expr) :
    (valuesOf label (argList label listed)).flatMap items = listed := by
  unfold argList
  split
  · rename_i empty
    rw [List.isEmpty_iff.mp empty]
    rfl
  · simp [items]

end Expr

/-! ## What is around a widget -/

section

variable {e : Expr} {label : String}

/-- The names that shadows are given for. -/
def shadowLabels : List String := ["decoration", "style"]

theorem given_withEffect (shadow : label ∈ shadowLabels) (effect : Effect) :
    (withEffect e effect).given label = e.given label := by
  rcases List.mem_pair.mp shadow with rfl | rfl <;> cases effect <;>
    simp [withEffect, Expr.given_call]

theorem given_wrapped (shadow : label ∈ shadowLabels) (names : Bool) (b : Box) :
    (wrapped names b e).given label = e.given label := by
  have effects (effects : List Effect) (e : Expr) :
      (effects.foldl withEffect e).given label = e.given label := by
    induction effects generalizing e with
    | nil => rfl
    | cons effect rest ih => rw [List.foldl_cons, ih, given_withEffect shadow]
  have opacity (e : Expr) : (withOpacity b.style.opacity e).given label = e.given label := by
    unfold withOpacity
    rcases List.mem_pair.mp shadow with rfl | rfl <;> split <;> simp [Expr.given_call]
  have rotation (e : Expr) :
      (withRotation b.geometry.rotation e).given label = e.given label := by
    unfold withRotation
    rcases List.mem_pair.mp shadow with rfl | rfl <;> split <;> simp [Expr.given_call]
  have name (e : Expr) : (withName names b.name e).given label = e.given label := by
    unfold withName
    split
    · rw [given, Expr.chain_commented]
      rfl
    · rfl
  rw [wrapped, name, rotation, opacity, effects]

/-- Nothing that a widget is wrapped in has shadows. -/
theorem shadows_wrapped (names : Bool) (b : Box) : (wrapped names b e).shadows = e.shadows := by
  rw [Expr.shadows, Expr.shadows, given_wrapped (by simp [shadowLabels]),
    given_wrapped (by simp [shadowLabels])]

/-- The blur of an effect, with the class that it is given to. -/
def blur? : Effect → Option (String × Expr)
  | .layerBlur radius => some ("ImageFiltered", blurFilter radius)
  | .backgroundBlur radius => some ("BackdropFilter", blurFilter radius)
  | .dropShadow _ | .innerShadow _ => none

theorem blurs_withEffect (effect : Effect) :
    (withEffect e effect).blurs = (blur? effect).toList ++ e.blurs := by
  cases effect <;> simp [withEffect, Expr.blurs_call, Expr.blursOf, Expr.blurLabel?, blur?]

/-- A widget is wrapped in the blurs of its node, the last of them outermost. -/
theorem blurs_wrapped (names : Bool) (b : Box) :
    (wrapped names b e).blurs = b.style.effects.reverse.filterMap blur? ++ e.blurs := by
  have effects (effects : List Effect) (e : Expr) :
      (effects.foldl withEffect e).blurs = effects.reverse.filterMap blur? ++ e.blurs := by
    induction effects generalizing e with
    | nil => rfl
    | cons effect rest ih =>
        rw [List.foldl_cons, ih, blurs_withEffect, List.reverse_cons, List.filterMap_append,
          List.append_assoc]
        cases blurred : blur? effect <;> simp [blurred]
  have opacity (e : Expr) : (withOpacity b.style.opacity e).blurs = e.blurs := by
    unfold withOpacity
    split <;> simp [Expr.blurs_call, Expr.blursOf, Expr.blurLabel?]
  have rotation (e : Expr) : (withRotation b.geometry.rotation e).blurs = e.blurs := by
    unfold withRotation
    split <;> simp [Expr.blurs_call, Expr.blursOf, Expr.blurLabel?]
  have name (e : Expr) : (withName names b.name e).blurs = e.blurs := by
    unfold withName
    split
    · rw [Expr.blurs, Expr.chain_commented]
      rfl
    · rfl
  rw [wrapped, name, rotation, opacity, effects]

end

/-! ## Leaves -/

section

variable (parent : Option Node) (n : Node)

theorem shadows_textWidget (t : Design.TextStyle) :
    (textWidget parent n t).shadows = n.box.style.effects.filterMap textShadow? := by
  have typography : valuesOf "shadows" (textStyleArgs t.typography) = [] := by
    simp [textStyleArgs]
  have style : Expr.listedIn "shadows" (call "TextStyle" (textStyleArgs t.typography ++
      argOpt "color" (topColor? n.box.style.fills) ++
      argList "shadows" (n.box.style.effects.filterMap textShadow?))) =
        n.box.style.effects.filterMap textShadow? := by
    simp [Expr.listedIn, typography, Expr.flatMap_items_argList]
  unfold textWidget sized
  dsimp only
  split <;> simpa [Expr.shadows, Expr.given_call] using style

theorem blurs_textWidget (t : Design.TextStyle) : (textWidget parent n t).blurs = [] := by
  unfold textWidget sized
  dsimp only
  split <;> simp [Expr.blurs_call, Expr.blursOf, Expr.blurLabel?]

theorem shadows_imageWidget (b : Box) : (imageWidget b).shadows = [] := by
  unfold imageWidget
  dsimp only
  split <;> simp [Expr.shadows, Expr.given_call]

theorem blurs_imageWidget (b : Box) : (imageWidget b).blurs = [] := by
  unfold imageWidget
  dsimp only
  split <;> simp [Expr.blurs_call, Expr.blursOf, Expr.blurLabel?]

theorem shadows_lineWidget : (lineWidget parent n).shadows = [] := by
  simp [lineWidget, Expr.shadows, Expr.given_call]

theorem blurs_lineWidget : (lineWidget parent n).blurs = [] := by
  simp [lineWidget, Expr.blurs_call, Expr.blursOf, Expr.blurLabel?]

end

/-! ## Containers -/

section

variable {label : String}

theorem given_stack (shadow : label ∈ shadowLabels) (clips : Bool) (items : List Expr) :
    (stack clips items).given label = [] := by
  rcases List.mem_pair.mp shadow with rfl | rfl <;> simp [stack, Expr.given_call]

theorem given_flowCall (shadow : label ∈ shadowLabels) (f : Design.Flow) (hugs : Bool)
    (items : List Expr) : (flowCall f hugs items).given label = [] := by
  unfold flowCall
  rcases List.mem_pair.mp shadow with rfl | rfl <;> split <;>
    simp [wrapCall, lineCall, Expr.given_call]

theorem blurs_stack (clips : Bool) (items : List Expr) : (stack clips items).blurs = [] := by
  simp [stack, Expr.blurs_call, Expr.blursOf, Expr.blurLabel?]

theorem blurs_flowCall (f : Design.Flow) (hugs : Bool) (items : List Expr) :
    (flowCall f hugs items).blurs = [] := by
  unfold flowCall
  split
  · simp [wrapCall, Expr.blurs_call, Expr.blursOf, Expr.blurLabel?]
  · cases direction : f.direction <;>
      simp [lineCall, direction, Expr.blurs_call, Expr.blursOf, Expr.blurLabel?]

/-- What holds the children of a node has neither shadows nor blurs before theirs. -/
theorem plain_childrenWidget? (b : Box) (made : List (Node × Expr)) :
    (∀ label ∈ shadowLabels, (childrenWidget? b made).toList.flatMap (given label) = []) ∧
      (childrenWidget? b made).toList.flatMap Expr.blurs = [] := by
  unfold childrenWidget?
  split
  · exact ⟨fun _ _ => rfl, rfl⟩
  · split
    · dsimp only
      split
      · exact ⟨fun _ shadow => by simp [given_flowCall shadow], by simp [blurs_flowCall]⟩
      · exact ⟨fun _ shadow => by simp [given_stack shadow], by simp [blurs_stack]⟩
    · exact ⟨fun _ shadow => by simp [given_stack shadow], by simp [blurs_stack]⟩

end

section

variable (parent : Option Node) (n : Node) (made : List (Node × Expr))

theorem given_style_containerWidget : (containerWidget parent n made).given "style" = [] := by
  have inside := (plain_childrenWidget? n.box made).1 "style" (by simp [shadowLabels])
  unfold containerWidget
  dsimp only
  split
  · split <;> simp [Expr.given_call, inside]
  · simp [Expr.given_call, inside]

theorem given_decoration_containerWidget :
    (containerWidget parent n made).given "decoration" = (decoration? n.box).toList := by
  have inside := (plain_childrenWidget? n.box made).1 "decoration" (by simp [shadowLabels])
  unfold containerWidget
  dsimp only
  split
  · rename_i undecorated _
    split <;> simp [Expr.given_call, inside, undecorated]
  · simp [Expr.given_call, inside]

theorem listedIn_decoration? (b : Box) :
    (decoration? b).toList.flatMap (Expr.listedIn "boxShadow") =
      b.style.effects.filterMap boxShadow? := by
  have others : valuesOf "boxShadow" (fillArgs b) = [] ∧ valuesOf "boxShadow" (borderArgs b) = [] ∧
      valuesOf "boxShadow" (shapeArgs b) = [] := by
    refine ⟨?_, ?_, ?_⟩
    · unfold fillArgs
      split
      · rename_i top _
        cases top.fill <;> split <;> simp [fillArg]
      · rfl
    · unfold borderArgs
      split <;> simp
    · unfold shapeArgs
      split <;> simp
  obtain ⟨fill, border, shape⟩ := others
  have listed : (valuesOf "boxShadow" (decorationArgs b)).flatMap Expr.items =
      b.style.effects.filterMap boxShadow? := by
    simp [decorationArgs, fill, border, shape, Expr.flatMap_items_argList]
  unfold decoration?
  split
  · rename_i empty
    rw [← listed, List.isEmpty_iff.mp empty]
    rfl
  · simp [Expr.listedIn, listed]

theorem shadows_containerWidget :
    (containerWidget parent n made).shadows = n.box.style.effects.filterMap boxShadow? := by
  rw [Expr.shadows, given_style_containerWidget, given_decoration_containerWidget,
    listedIn_decoration?, List.flatMap_nil, List.append_nil]

theorem blurs_containerWidget : (containerWidget parent n made).blurs = [] := by
  have inside := (plain_childrenWidget? n.box made).2
  unfold containerWidget
  dsimp only
  split
  · split <;> simp [Expr.blurs_call, Expr.blursOf, Expr.blurLabel?, inside]
  · simp [Expr.blurs_call, Expr.blursOf, Expr.blurLabel?, inside]

end

/-! ## Nodes -/

/-- The shadows that the widget of a node has; that of an image or a line has none. -/
def drawnShadows (b : Box) : List Expr :=
  if b.style.text.isSome then b.style.effects.filterMap textShadow?
  else if b.kind == .image || b.kind.isLine then []
  else b.style.effects.filterMap boxShadow?

section

variable (parent : Option Node) (n : Node) (made : List (Node × Expr))

theorem shadows_base : (base parent n made).shadows = drawnShadows n.box := by
  unfold base drawnShadows
  cases style : n.box.style.text with
  | some t => exact shadows_textWidget parent n t
  | none =>
      by_cases image : n.box.kind = .image
      · simp [image, shadows_imageWidget]
      · by_cases line : n.box.kind.isLine = true
        · simp [image, line, shadows_lineWidget]
        · simp [image, line, shadows_containerWidget]

theorem blurs_base : (base parent n made).blurs = [] := by
  unfold base
  split
  · exact blurs_textWidget parent n _
  · split
    · exact blurs_imageWidget n.box
    · split
      · exact blurs_lineWidget parent n
      · exact blurs_containerWidget parent n made

theorem shadows_widget (names : Bool) :
    (widget names parent n).shadows = drawnShadows n.box := by
  rcases n with ⟨box, children⟩
  rw [widget, shadows_wrapped, shadows_base]

theorem blurs_widget (names : Bool) :
    (widget names parent n).blurs = n.box.style.effects.reverse.filterMap blur? := by
  rcases n with ⟨box, children⟩
  rw [widget, blurs_wrapped, blurs_base, List.append_nil]
  rfl

end

/-! ## Warnings -/

/-- What of a node, without those below it, has no widget. -/
def omissions (b : Box) : List Reason := b.unsupported ++ contentOmissions b ++ effectOmissions b

theorem mem_warnings_iff {box : Box} {children : List Node}
    (leafless : isLeaf box = true → children = []) {w : Warning} :
    w ∈ warnings (.mk box children) ↔
      (box.id = w.nodeId ∧ w.reason ∈ omissions box) ∨ w ∈ listWarnings children := by
  have inside : w ∈ (if isLeaf box then [] else listWarnings children) ↔
      w ∈ listWarnings children := by
    split
    · rename_i leaf
      rw [leafless leaf]
      exact iff_of_false List.not_mem_nil List.not_mem_nil
    · rfl
  rw [warnings, List.mem_append, List.mem_append, inside, Warning.mem_about, Warning.mem_about,
    or_right_comm, ← and_or_left, ← List.mem_append, ← List.append_assoc, omissions,
    eq_comm (a := box.id)]

/-- The warnings of a forest are those of its nodes. -/
theorem mem_listWarnings_iff (forest : List Node) {w : Warning} :
    (∀ n ∈ Node.preorderList forest, isLeaf n.box = true → n.children = []) →
      (w ∈ listWarnings forest ↔
        ∃ n ∈ Node.preorderList forest, n.box.id = w.nodeId ∧ w.reason ∈ omissions n.box) := by
  induction forest using Node.forestInduction with
  | nil =>
      intro _
      exact iff_of_false List.not_mem_nil fun ⟨_, member, _⟩ => nomatch member
  | cons box children rest below after =>
      intro leafless
      obtain ⟨own, inner, others⟩ := Node.forall_preorderList_mk_cons.mp leafless
      rw [listWarnings, List.mem_append, @mem_warnings_iff box children own w, below inner,
        after others, Node.preorderList_mk_cons, List.exists_mem_cons_iff, or_assoc]
      simp only [List.mem_append, or_and_right, exists_or]
      rfl

/-! ## Effects -/

/-- An effect is there in the widget of a node, as a shadow of a box or of letters or as a blur. -/
def Represents (e : Expr) (effect : Effect) : Prop :=
  (∃ shadow ∈ e.shadows, boxShadow? effect = some shadow ∨ textShadow? effect = some shadow) ∨
    ∃ blur ∈ e.blurs, blur? effect = some blur

/-- An image or a line has a drop shadow, and no inner shadow that there would be a warning for. -/
structure LosesShadow (b : Box) : Prop where
  leaf : b.kind = .image ∨ b.kind.isLine = true
  shadow : ∃ shadow, .dropShadow shadow ∈ b.style.effects
  unreported : ∀ shadow, .innerShadow shadow ∉ b.style.effects

section

variable {b : Box}

theorem effectOmissions_eq_nil_iff :
    effectOmissions b = [] ↔ ∀ shadow, .innerShadow shadow ∉ b.style.effects := by
  rw [effectOmissions, List.filterMap_eq_nil_iff]
  constructor
  · intro none shadow member
    cases none _ member
  · intro none effect member
    cases effect with
    | innerShadow shadow => exact absurd member (none shadow)
    | dropShadow | layerBlur | backgroundBlur => rfl

/-- Of images and lines nothing is reported but their effects. -/
theorem omissions_of_leaf (formed : b.WellFormed)
    (leaf : b.kind = .image ∨ b.kind.isLine = true) : omissions b = effectOmissions b := by
  have supported : b.unsupportedType = none := by
    by_contra absent
    have container := (formed.unsupported (Option.isSome_iff_ne_none.mpr absent)).1
    rw [container] at leaf
    rcases leaf with image | line
    · cases image
    · cases line
  have blank : contentOmissions b = [] := by
    unfold contentOmissions
    cases style : b.style.text with
    | some t =>
        have text : b.kind = .text := formed.text_iff.mp (by rw [style]; rfl)
        rw [text] at leaf
        rcases leaf with image | line
        · cases image
        · cases line
    | none =>
        refine if_pos ?_
        rcases leaf with image | line
        · simp [isLeaf, image]
        · simp [isLeaf, line]
  rw [omissions, Box.unsupported, supported, blank]
  rfl

theorem drawnShadows_of_leaf (formed : b.WellFormed)
    (leaf : b.kind = .image ∨ b.kind.isLine = true) : drawnShadows b = [] := by
  have other : b.style.text.isSome = false := by
    rw [Bool.eq_false_iff, Ne, formed.text_iff]
    intro text
    rw [text] at leaf
    rcases leaf with image | line
    · cases image
    · cases line
  unfold drawnShadows
  rw [other, if_neg Bool.false_ne_true]
  refine if_pos ?_
  rcases leaf with image | line
  · simp [image]
  · simp [line]

/-- Elsewhere each drop shadow is drawn, around the letters or the box. -/
theorem mem_drawnShadows {shadow : Design.Shadow}
    (other : ¬(b.kind = .image ∨ b.kind.isLine = true))
    (member : .dropShadow shadow ∈ b.style.effects) :
    ∃ drawn ∈ drawnShadows b, boxShadow? (.dropShadow shadow) = some drawn ∨
      textShadow? (.dropShadow shadow) = some drawn := by
  unfold drawnShadows
  split
  · exact ⟨_, List.mem_filterMap.mpr ⟨_, member, rfl⟩, .inr rfl⟩
  · rw [if_neg (by simpa using other)]
    exact ⟨_, List.mem_filterMap.mpr ⟨_, member, rfl⟩, .inl rfl⟩

/-- What is neither drawn nor reported of the effects of a node is a drop shadow of an image or a
line. -/
theorem effects_kept_iff (formed : b.WellFormed) {e : Expr} (shadows : e.shadows = drawnShadows b)
    (blurs : e.blurs = b.style.effects.reverse.filterMap blur?) :
    (∀ effect ∈ b.style.effects, Represents e effect ∨ omissions b ≠ []) ↔ ¬LosesShadow b := by
  constructor
  · rintro kept ⟨leaf, ⟨shadow, member⟩, unreported⟩
    have silent : omissions b = [] := by
      rw [omissions_of_leaf formed leaf, effectOmissions_eq_nil_iff]
      exact unreported
    rcases kept _ member with (⟨drawn, among, -⟩ | ⟨blur, -, none⟩) | reported
    · rw [shadows, drawnShadows_of_leaf formed leaf] at among
      cases among
    · cases none
    · exact reported silent
  · intro safe effect member
    have inner (shadow : Design.Shadow) (among : .innerShadow shadow ∈ b.style.effects) :
        omissions b ≠ [] := by
      intro silent
      have silent := (List.append_eq_nil_iff.mp silent).2
      exact effectOmissions_eq_nil_iff.mp silent shadow among
    cases effect with
    | innerShadow shadow => exact .inr (inner shadow member)
    | layerBlur radius | backgroundBlur radius =>
        refine .inl (.inr ⟨_, ?_, rfl⟩)
        rw [blurs]
        exact List.mem_filterMap.mpr ⟨_, List.mem_reverse.mpr member, rfl⟩
    | dropShadow shadow =>
        by_cases leaf : b.kind = .image ∨ b.kind.isLine = true
        · right
          by_contra silent
          exact safe ⟨leaf, ⟨shadow, member⟩, fun shadow among => inner shadow among silent⟩
        · left
          rw [Represents, shadows]
          exact .inl (mem_drawnShadows leaf member)

end

/-! ## Designs -/

/-- What becomes of the effects of a node in the code of its forest. -/
structure EffectsKept (s : Settings) (forest : List Node) (parent : Option Node) (n : Node) :
    Prop where
  /-- The widget is in the code. -/
  emitted : heldWidget s.showLayerNames parent n ∈ (trees s forest).flatMap Expr.parts
  /-- Its drop shadows are in their order, but those of an image or a line are missing. -/
  shadows : (widget s.showLayerNames parent n).shadows = drawnShadows n.box
  /-- It is in all its blurs, the last of them outermost. -/
  blurs : (widget s.showLayerNames parent n).blurs = n.box.style.effects.reverse.filterMap blur?
  /-- There is a warning for each inner shadow, and for what else of the node is left out. -/
  inner : ∀ shadow, .innerShadow shadow ∈ n.box.style.effects → .innerShadow ∈ omissions n.box
  reported : ∀ reason ∈ omissions n.box, ⟨n.box.id, reason⟩ ∈ Framework.flutter.warnings forest
  kept_iff : (∀ effect ∈ n.box.style.effects,
    Represents (widget s.showLayerNames parent n) effect ∨ omissions n.box ≠ []) ↔
      ¬LosesShadow n.box

/-- Each effect of a node is in its widget or there is a warning about the node, unless it is a drop
shadow of an image or a line. -/
theorem effectsKept_of_build {s : Settings} {host : Option Scene.Node} {roots : List Scene.Node}
    {forest : List Node} (built : Design.build s host roots = .ok forest) (t : Settings) :
    ∀ v ∈ Node.preorderListUnder none forest, EffectsKept t forest v.1 v.2 := by
  intro v member
  have formed : ∀ n ∈ Node.preorderList forest, n.WellFormed :=
    fun n among => Design.wellFormed_of_mem_build built among
  have among : v.2 ∈ Node.preorderList forest := Node.mem_of_mem_preorderListUnder member
  constructor
  case emitted => exact heldWidget_mem_trees t formed v member
  case shadows => exact shadows_widget v.1 v.2 _
  case blurs => exact blurs_widget v.1 v.2 _
  case inner =>
    intro shadow inside
    exact List.mem_append_right _ (List.mem_filterMap.mpr ⟨_, inside, rfl⟩)
  case reported =>
    intro reason omitted
    refine (mem_listWarnings_iff forest fun n inside leaf => ?_).mpr ⟨v.2, among, rfl, omitted⟩
    exact Design.leafless_of_build built inside (.inr (.inl leaf))
  case kept_iff =>
    exact effects_kept_iff (formed v.2 among).box (shadows_widget v.1 v.2 _)
      (blurs_widget v.1 v.2 _)

/-- A blurred card that has a shadow of either kind. -/
theorem effectsKept_of_build_card :
    let card : Scene.Node := .mk
      { nodeType := "FRAME", effects := [{ radius := 4.0 }, { effectType := .innerShadow },
          { effectType := .layerBlur, radius := 2.0 }] } []
    let s := { Settings.defaults with framework := .flutter }
    let forest := (Design.ofSelection s none [card] .empty).1
    Design.build s none [card] = .ok forest ∧
      ∃ root, forest = [root] ∧ root.box.style.effects.length = 3 ∧
        EffectsKept s forest none root := by
  intro card s forest
  have built : Design.build s none [card] = .ok forest := rfl
  exact ⟨built, _, rfl, rfl, effectsKept_of_build built s (none, _) List.mem_cons_self⟩

/-- Nothing is left of the shadow of this photo. -/
theorem not_represents_photo :
    let photo : Scene.Node := .mk
      { id := "1:1", name := "Photo", nodeType := "RECTANGLE", width := 40.0, height := 20.0,
        fills := [{ paintType := .image, imageHash := some "a" }],
        effects := [{ radius := 4.0, offset := ⟨0.0, 2.0⟩ }] } []
    let s := { Settings.defaults with framework := .flutter }
    let forest := (Design.ofSelection s none [photo] .empty).1
    Design.build s none [photo] = .ok forest ∧
      (∃ root, forest = [root] ∧ ∃ effect ∈ root.box.style.effects,
        ¬Represents (widget s.showLayerNames none root) effect) ∧
      Framework.flutter.warnings forest = [] ∧
      code s forest = "Image.network(\n  'https://placehold.co/40x20',\n  width: 40.0,\n" ++
        "  height: 20.0,\n  fit: BoxFit.cover,\n)" := by
  intro photo s forest
  refine ⟨rfl, ⟨_, rfl, _, List.mem_cons_self, ?_⟩, rfl, by decide +kernel⟩
  rintro (⟨shadow, among, -⟩ | ⟨blur, -, none⟩)
  · rw [shadows_widget] at among
    cases among
  · cases none

end Handoff.Dart
