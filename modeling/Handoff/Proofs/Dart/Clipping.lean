import Handoff.Proofs.Dart.Chain

/-!
What overflows a node that clips its contents.

There are three words for it: a `ClipRect` around the widget, a `Container` told to, and a `Stack`
that is not told otherwise.  A `Container` can only be told to if it is decorated, and around
what has neither padding nor decoration there is a `ClipRect` instead.  What has a padding and no
decoration falls between the two: nothing in its widget clips (`LosesClip`), unless it blurs what
is behind it and is inside the `ClipRect` for that.

The main statement is `keepsClip_of_build`.
-/

namespace Handoff.Dart

open Design (Box Node Paint)
open Handoff.Dart.Expr (raw call list Around valuesOf)

/-! ## Calls that clip -/

/-- A call cuts off what overflows it.  A stack does so of its own accord and a container does
not. -/
def Clips (c : String × List Arg) : Prop :=
  c.1 = "ClipRect" ∨
    c.1 = "Container" ∧ raw "Clip.antiAlias" ∈ valuesOf "clipBehavior" c.2 ∨
    c.1 = "Stack" ∧ raw "Clip.none" ∉ valuesOf "clipBehavior" c.2

/-- Among the calls of a single node there is one that clips. -/
def Expr.ClipsContents (e : Expr) : Prop := ∃ c ∈ e.chain, Clips c

theorem clips_iff_of_lists {clips : Bool} {name : String} {args : List Arg}
    (lists : Lists clips name args) : Clips (name, args) ↔ clips = true := by
  have others : name ≠ "ClipRect" ∧ name ≠ "Container" := by
    constructor <;> rintro rfl <;> exact absurd lists.isClass (by simp [listingClasses])
  rw [← lists.clips, Clips, or_iff_right others.1, or_iff_right fun told => others.2 told.1]

theorem clipRect_mem_wrappers_iff (b : Box) :
    "ClipRect" ∈ wrappers b ↔ ∃ radius, .backgroundBlur radius ∈ b.style.effects := by
  have effect : ∀ e : Design.Effect,
      "ClipRect" ∈ effectClasses e ↔ ∃ radius, e = .backgroundBlur radius := by
    intro e
    cases e <;> simp [effectClasses]
  have before : "ClipRect" ∉ (if b.geometry.rotation != 0.0 then ["Transform.rotate"] else []) ++
      (if b.style.opacity < 1.0 then ["Opacity"] else []) := by
    split <;> split <;> simp
  rw [wrappers, List.mem_append, or_iff_right before, List.mem_flatMap]
  simp only [List.mem_reverse, effect]
  constructor
  · rintro ⟨_, member, radius, rfl⟩
    exact ⟨radius, member⟩
  · rintro ⟨radius, member⟩
    exact ⟨_, member, radius, rfl⟩

/-- Of what a node is drawn with only the widget for a background blur clips. -/
theorem clipsContents_wrapped_iff (names : Bool) (b : Box) (e : Expr) :
    (wrapped names b e).ClipsContents ↔
      (∃ radius, .backgroundBlur radius ∈ b.style.effects) ∨ e.ClipsContents := by
  obtain ⟨calls, chained, named, -⟩ := around_wrapped names b e
  have clipped : (∃ c ∈ calls, Clips c) ↔ "ClipRect" ∈ wrappers b := by
    rw [← named, List.mem_map]
    refine exists_congr fun c => and_congr_right fun member => ?_
    have drawn : c.1 ∈ wrappers b := named ▸ List.mem_map_of_mem member
    have others : c.1 ≠ "Container" ∧ c.1 ≠ "Stack" := by
      constructor <;> intro other <;> exact absurd (wrappers_subset b drawn) (by simp [other])
    rw [Clips, or_iff_left]
    rintro (told | told)
    · exact others.1 told.1
    · exact others.2 told.1
  rw [← clipRect_mem_wrappers_iff, ← clipped]
  unfold Expr.ClipsContents
  simp only [chained, List.mem_append, or_and_right, exists_or]

/-! ## Containers -/

/-- There is nothing to draw for a box. -/
structure Undecorated (b : Box) : Prop where
  fills : b.style.fills = []
  border : ∀ stroke color, b.style.stroke = some stroke →
    b.style.strokes.getLast?.map Paint.fill ≠ some (.solid color)
  shape : b.kind ≠ .vector .ellipse
  corners : b.style.cornerRadius = .none
  shadows : ∀ shadow, .dropShadow shadow ∉ b.style.effects

theorem fillArgs_eq_nil_iff (b : Box) : fillArgs b = [] ↔ b.style.fills = [] := by
  unfold fillArgs
  split
  · rename_i top last
    have own : fillArg b top.fill ≠ [] := by
      cases top.fill <;> simp [fillArg, arg]
    refine iff_of_false (by simp [own]) fun empty => ?_
    rw [empty] at last
    cases last
  · rename_i last
    exact iff_of_true rfl (List.getLast?_eq_none_iff.mp last)

theorem borderArgs_eq_nil_iff (b : Box) : borderArgs b = [] ↔
    ∀ stroke color, b.style.stroke = some stroke →
      b.style.strokes.getLast?.map Paint.fill ≠ some (.solid color) := by
  unfold borderArgs
  split
  · rename_i stroke color stroked top
    refine iff_of_false (by simp [arg]) fun none => none stroke color stroked top
  · rename_i other
    exact iff_of_true rfl other

theorem shapeArgs_eq_nil_iff (b : Box) :
    shapeArgs b = [] ↔ b.kind ≠ .vector .ellipse ∧ b.style.cornerRadius = .none := by
  unfold shapeArgs
  split
  · rename_i ellipse
    exact iff_of_false (by simp [arg]) fun none => none.1 ellipse
  · rename_i other
    cases b.style.cornerRadius <;> simp [other, borderRadius?, argOpt]

theorem shadows_eq_nil_iff (effects : List Design.Effect) :
    argList "boxShadow" (effects.filterMap boxShadow?) = [] ↔
      ∀ shadow, .dropShadow shadow ∉ effects := by
  have empty : ∀ items : List Expr, argList "boxShadow" items = [] ↔ items = [] := by
    intro items
    unfold argList
    split <;> simp_all [arg]
  rw [empty, List.filterMap_eq_nil_iff]
  constructor
  · intro none shadow member
    cases none _ member
  · intro none effect member
    cases effect with
    | dropShadow shadow => exact absurd member (none shadow)
    | innerShadow | layerBlur | backgroundBlur => rfl

theorem decoration?_eq_none_iff (b : Box) : decoration? b = none ↔ Undecorated b := by
  have empty : decoration? b = none ↔ decorationArgs b = [] := by
    unfold decoration?
    split <;> simp_all
  rw [empty, decorationArgs, List.append_eq_nil_iff, List.append_eq_nil_iff,
    List.append_eq_nil_iff, fillArgs_eq_nil_iff, borderArgs_eq_nil_iff, shapeArgs_eq_nil_iff,
    shadows_eq_nil_iff]
  constructor
  · rintro ⟨⟨⟨fills, border⟩, shape, corners⟩, shadows⟩
    exact ⟨fills, border, shape, corners, shadows⟩
  · rintro ⟨fills, border, shape, corners, shadows⟩
    exact ⟨⟨⟨fills, border⟩, shape, corners⟩, shadows⟩

theorem padding?_ne_none_iff (b : Box) :
    padding? b ≠ none ↔ ∃ f, b.layout.flow? = some f ∧ f.padding.isZero = false := by
  unfold padding?
  cases b.layout.flow? with
  | none => simp
  | some f => cases zero : f.padding.isZero <;> simp [zero]

section

variable {parent : Option Node} {n : Node} {made : List (Node × Expr)} {e : Expr}

/-- A call with a child comes before the calls of the child. -/
theorem chain_argOpt_child {name : String} {before : List Arg}
    (childless : valuesOf "child" before = []) :
    (call name (before ++ argOpt "child" (some e))).chain =
      [(name, before ++ argOpt "child" (some e))] ++ e.chain := by
  simp [childless]

theorem chain_clipRect (e : Expr) :
    (call "ClipRect" (arg "child" e)).chain = ("ClipRect", arg "child" e) :: e.chain := by
  simp

/-- The calls of a container are around the one that lists its children, and they clip unless there
is a padding and no decoration. -/
theorem chain_containerWidget (listing : childrenWidget? n.box made = some e) :
    ∃ frame, (containerWidget parent n made).chain = frame ++ e.chain ∧
      ((∃ c ∈ frame, Clips c) ↔ n.box.style.clipsContent = true ∧
        (decoration? n.box ≠ none ∨ padding? n.box = none)) := by
  unfold containerWidget
  dsimp only
  rw [listing]
  cases decorated : decoration? n.box with
  | some decoration => exact ⟨_, chain_argOpt_child (by simp), by simp [Clips]⟩
  | none =>
      cases padded : padding? n.box with
      | some padding => exact ⟨_, chain_argOpt_child (by simp), by simp [Clips]⟩
      | none =>
          have box : ∃ args, (call "SizedBox" (argOpt "width" (size? parent n .horizontal) ++
              argOpt "height" (size? parent n .vertical) ++ argOpt "child" (some e))).chain =
                ("SizedBox", args) :: e.chain :=
            ⟨_, chain_argOpt_child (by simp)⟩
          obtain ⟨args, box⟩ := box
          dsimp only
          split
          · rename_i clips
            exact ⟨[_, _], (chain_clipRect _).trans (congrArg (List.cons _) box),
              by simp [Clips, clips]⟩
          · rename_i clips
            exact ⟨[_], box, by simp [Clips, clips]⟩

/-- The stack of what has no flow clips, but around that there are calls that do anyway. -/
theorem clipsContents_containerWidget_iff (clips : n.box.style.clipsContent = true)
    (listing : childrenWidget? n.box made = some e) :
    (containerWidget parent n made).ClipsContents ↔
      decoration? n.box ≠ none ∨ padding? n.box = none := by
  obtain ⟨frame, framed, clipped⟩ := @chain_containerWidget parent n made e listing
  obtain ⟨name, args, rfl, lists⟩ := lists_childrenWidget? listing
  rw [clips, Bool.and_true] at lists
  have whole : (containerWidget parent n made).ClipsContents ↔
      (∃ c ∈ frame, Clips c) ∨ Clips (name, args) := by
    unfold Expr.ClipsContents
    simp only [framed, lists.chain_eq, List.mem_append, List.mem_singleton, or_and_right,
      exists_or, exists_eq_left]
  have flowless : n.box.layout.flow?.isNone = true → padding? n.box = none := by
    intro absent
    rw [padding?, Option.isNone_iff_eq_none.mp absent]
  rw [whole, clipped, clips_iff_of_lists lists, and_iff_right clips, or_assoc]
  refine or_congr_right ⟨fun either => either.elim id flowless, .inl⟩

end

/-! ## Designs -/

/-- A padding without a decoration, and nothing blurred behind it. -/
structure LosesClip (b : Box) : Prop where
  padded : ∃ f, b.layout.flow? = some f ∧ f.padding.isZero = false
  undecorated : Undecorated b
  unblurred : ∀ radius, .backgroundBlur radius ∉ b.style.effects

/-- How the widget of a node that is to clip its children does so. -/
structure KeepsClip (s : Settings) (forest : List Node) (parent : Option Node) (n : Node) :
    Prop where
  /-- The widget is in the code. -/
  emitted : heldWidget s.showLayerNames parent n ∈ (trees s forest).flatMap Expr.parts
  /-- The last of its calls is the one that the widgets of the children are listed in. -/
  listing : ∃ name args, (widget s.showLayerNames parent n).chain.getLast? = some (name, args) ∧
    name ∈ listingClasses ∧
      ∀ c ∈ n.children, heldWidget s.showLayerNames (some n) c ∈ (call name args).parts
  clips_iff : (widget s.showLayerNames parent n).ClipsContents ↔ ¬LosesClip n.box

section

variable {n : Node} {names : Bool} {parent : Option Node}

/-- The widget of a node with children is that of a container, drawn as the node is. -/
theorem widget_eq_wrapped (formed : n.WellFormed) (present : n.children ≠ []) :
    widget names parent n = wrapped names n.box (containerWidget parent n
      (n.children.map fun c => (c, heldWidget names (some n) c))) := by
  have container := (formed.branches present).widgetBase parent
    (n.children.map fun c => (c, heldWidget names (some n) c))
  rw [← container]
  cases n with
  | mk box children =>
      rw [widget, placedChildren_eq_map]
      rfl

theorem listing_of_children (formed : n.WellFormed) (present : n.children ≠ []) :
    ∃ name args, (widget names parent n).chain.getLast? = some (name, args) ∧
      name ∈ listingClasses ∧
        ∀ c ∈ n.children, heldWidget names (some n) c ∈ (call name args).parts := by
  obtain ⟨e, listing, kept⟩ := sublist_childrenWidget? n.box present
    fun c => heldWidget names (some n) c
  obtain ⟨frame, framed, -⟩ := @chain_containerWidget parent n _ e listing
  obtain ⟨name, args, rfl, lists⟩ := lists_childrenWidget? listing
  obtain ⟨calls, chained, -⟩ := around_wrapped names n.box (containerWidget parent n
    (n.children.map fun c => (c, heldWidget names (some n) c)))
  refine ⟨name, args, ?_, lists.isClass, fun c child => kept.subset ?_⟩
  · rw [widget_eq_wrapped formed present, chained, framed, lists.chain_eq, ← List.append_assoc,
      List.getLast?_concat]
  · have among : c ∈ n.box.lineUp n.children := (n.box.lineUp_perm n.children).mem_iff.mpr child
    exact List.mem_flatMap.mpr ⟨_, List.mem_map_of_mem among, Expr.mem_parts_self _⟩

theorem clipsContents_widget_iff (formed : n.WellFormed) (present : n.children ≠ [])
    (clips : n.box.style.clipsContent = true) :
    (widget names parent n).ClipsContents ↔ ¬LosesClip n.box := by
  obtain ⟨e, listing, -⟩ := sublist_childrenWidget? n.box present
    fun c => heldWidget names (some n) c
  have lost : LosesClip n.box ↔ padding? n.box ≠ none ∧ decoration? n.box = none ∧
      ∀ radius, .backgroundBlur radius ∉ n.box.style.effects := by
    rw [padding?_ne_none_iff, decoration?_eq_none_iff]
    constructor
    · rintro ⟨padded, undecorated, unblurred⟩
      exact ⟨padded, undecorated, unblurred⟩
    · rintro ⟨padded, undecorated, unblurred⟩
      exact ⟨padded, undecorated, unblurred⟩
  rw [widget_eq_wrapped formed present, clipsContents_wrapped_iff,
    clipsContents_containerWidget_iff clips listing, lost, ← not_exists]
  tauto

end

/-- What is to clip its children has a widget that does, unless it has a padding and no decoration
and blurs nothing behind it. -/
theorem keepsClip_of_build {s : Settings} {host : Option Scene.Node} {roots : List Scene.Node}
    {forest : List Node} (built : Design.build s host roots = .ok forest) (t : Settings) :
    ∀ v ∈ Node.preorderListUnder none forest, v.2.box.style.clipsContent = true →
      v.2.children ≠ [] → KeepsClip t forest v.1 v.2 := by
  intro v member clips present
  have formed : ∀ n ∈ Node.preorderList forest, n.WellFormed :=
    fun n among => Design.wellFormed_of_mem_build built among
  have own : v.2.WellFormed := formed v.2 (Node.mem_of_mem_preorderListUnder member)
  constructor
  case emitted => exact heldWidget_mem_trees t formed v member
  case listing => exact listing_of_children own present
  case clips_iff => exact clipsContents_widget_iff own present clips

/-- A card without a padding, around which there is a `ClipRect`. -/
theorem keepsClip_of_build_card :
    let dot : Scene.Node := .mk { nodeType := "RECTANGLE", width := 80.0, height := 10.0 } []
    let card : Scene.Node := .mk
      { nodeType := "FRAME", clipsContent := true, autoLayout := { mode := .horizontal } } [dot]
    let s := { Settings.defaults with framework := .flutter }
    let forest := (Design.ofSelection s none [card] .empty).1
    Design.build s none [card] = .ok forest ∧
      ∃ root, forest = [root] ∧ root.box.style.clipsContent = true ∧ root.children ≠ [] ∧
        KeepsClip s forest none root := by
  intro dot card s forest
  have built : Design.build s none [card] = .ok forest := rfl
  refine ⟨built, _, rfl, rfl, List.cons_ne_nil _ _, ?_⟩
  exact keepsClip_of_build built s (none, _) List.mem_cons_self rfl (List.cons_ne_nil _ _)

/-- In the padding of this card what overflows it is shown. -/
theorem not_clipsContents_padded :
    let dot : Scene.Node := .mk
      { id := "1:2", name := "Dot", nodeType := "RECTANGLE", width := 80.0, height := 10.0 } []
    let card : Scene.Node := .mk
      { id := "1:1", name := "Card", nodeType := "FRAME", width := 40.0, height := 20.0,
        clipsContent := true, autoLayout := { mode := .horizontal, paddingLeft := 8.0 } } [dot]
    let s := { Settings.defaults with framework := .flutter }
    let forest := (Design.ofSelection s none [card] .empty).1
    Design.build s none [card] = .ok forest ∧
      (∃ root, forest = [root] ∧ root.box.kind = .container ∧
        root.box.style.clipsContent = true ∧ root.children ≠ [] ∧
        ¬(widget s.showLayerNames none root).ClipsContents) ∧
      code s forest = "Container(\n  width: 40.0,\n  height: 20.0,\n" ++
        "  padding: EdgeInsets.only(left: 8.0, top: 0.0, right: 0.0, bottom: 0.0),\n" ++
        "  child: Row(\n    crossAxisAlignment: CrossAxisAlignment.start,\n    children: [\n" ++
        "      SizedBox(width: 80.0, height: 10.0),\n    ],\n  ),\n)" := by
  intro dot card s forest
  have built : Design.build s none [card] = .ok forest := rfl
  refine ⟨built, ⟨_, rfl, rfl, rfl, List.cons_ne_nil _ _, fun clipped => ?_⟩, by decide +kernel⟩
  have formed := Design.wellFormed_of_mem_build built List.mem_cons_self
  refine (clipsContents_widget_iff formed (List.cons_ne_nil _ _) rfl).mp clipped ?_
  constructor
  case padded => exact ⟨_, rfl, by decide +kernel⟩
  case undecorated => exact (decoration?_eq_none_iff _).mp (if_pos (by decide +kernel))
  case unblurred => exact fun _ => List.not_mem_nil

end Handoff.Dart
