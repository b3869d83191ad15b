import Handoff.Proofs.Scene.Shown

/-!
Exchanging one node of a selection for another.

A `Scene.Place` is a selection with one node left out, and `Place.fill` puts a node there.
`Node.Wraps` says that a node is another one in bare groups, each of which only passes on what is
in it.  Nodes around the place cannot tell the two apart (`Node.Wraps.alike`), and a group that is
replaced leaves nothing behind but its offset (`Outline.ofNode_of_wraps`).

`Outline.Shifted` compares outlines that are the same but for the offset of one node.  One step
out of a place keeps them so, whatever becomes of the node around it (`Outline.shifted_around`),
and so does the way out to the roots (`Outline.shifted_fill`).
-/

namespace Handoff

namespace Scene

@[simp] theorem Node.layer_mk (layer : Layer) (children : List Node) :
    (mk layer children).layer = layer := rfl

@[simp] theorem Node.children_mk (layer : Layer) (children : List Node) :
    (mk layer children).children = children := rfl

/-! ## Places -/

/-- A place for a node in a selection: among the roots, or on a layer that is the layer of a node
at a place itself. -/
inductive Place where
  | root (before after : List Node)
  | inside (outer : Place) (layer : Layer) (before after : List Node)

namespace Place

/-- The roots of the selection with a node at the place. -/
def fill : Place → Node → List Node
  | root before after, n => before ++ n :: after
  | inside outer layer before after, n => outer.fill (.mk layer (before ++ n :: after))

/-- Whether what stands at the place can be shown: all nodes around it are visible and may hold
children. -/
def isShown : Place → Bool
  | root _ _ => true
  | inside outer layer _ _ => layer.visible && layer.kind.holdsChildren && outer.isShown

/-- The node stands among the roots, or on a node that is kept with it and holds it. -/
def Keeps : Place → Node → Prop
  | root _ _, _ => True
  | inside _ layer before after, n =>
    layer.visible = true ∧ layer.kind.holdsChildren = true ∧
      (Node.mk layer (before ++ n :: after)).passThrough? = none

end Place

/-! ## Bare groups around a node -/

/-- The second node is the first in groups with the given layers, the outermost first: each is
visible, and the next node stands in for it. -/
inductive Node.Wraps (n : Node) : List Layer → Node → Prop
  | none : Wraps n [] n
  | group {g inner : Node} {groups : List Layer} (visible : g.layer.visible = true)
    (standIn : g.passThrough? = some inner) (wraps : Wraps n groups inner) :
    Wraps n (g.layer :: groups) g

/-- What a node around them asks of its children is the same of both nodes. -/
structure Node.Alike (n m : Node) : Prop where
  visible : n.layer.visible = m.layer.visible
  absolute : (n.layer.positioning == .absolute) = (m.layer.positioning == .absolute)

theorem Layer.positioning_of_isBareGroup {l : Layer} (bare : l.isBareGroup = true) :
    (l.positioning == .absolute) = false := by
  simp only [Layer.isBareGroup, Bool.and_eq_true] at bare
  exact bne_iff_ne.mp bare.1.2 |> beq_eq_false_iff_ne.mpr

theorem Layer.kind_of_isBareGroup {l : Layer} (bare : l.isBareGroup = true) : l.kind = .group := by
  simp only [Layer.isBareGroup, Bool.and_eq_true, beq_iff_eq] at bare
  rw [Layer.kind, Layer.kind?, bare.1.1.1.1.1]
  rfl

/-- What stands in for a group is in the flow as the group is. -/
theorem Node.Wraps.positioning {n g : Node} {groups : List Layer} (wraps : n.Wraps groups g)
    (flows : (g.layer.positioning == .absolute) = false) :
    (n.layer.positioning == .absolute) = false := by
  induction wraps with
  | none => exact flows
  | group visible standIn wraps ih =>
      exact ih (beq_eq_false_iff_ne.mpr (Node.passThrough?_eq_some_iff.mp standIn).2.2)

/-- From around them, a node and the same node in bare groups cannot be told apart. -/
theorem Node.Wraps.alike {n g : Node} {groups : List Layer} (wraps : n.Wraps groups g)
    (visible : n.layer.visible = true) : n.Alike g := by
  cases wraps with
  | none => exact ⟨rfl, rfl⟩
  | group shown standIn wraps =>
      have bare := (Node.passThrough?_eq_some_iff.mp standIn).1
      have flows := Layer.positioning_of_isBareGroup bare
      exact ⟨visible.trans shown.symm,
        ((Node.Wraps.group shown standIn wraps).positioning flows).trans flows.symm⟩

/-- Whether a node has a stand-in does not hang on which of two like nodes is in it. -/
theorem Node.Alike.isSome_passThrough? {n m : Node} (alike : n.Alike m) (layer : Layer)
    (before after : List Node) :
    (Node.mk layer (before ++ n :: after)).passThrough?.isSome =
      (Node.mk layer (before ++ m :: after)).passThrough?.isSome := by
  unfold Node.passThrough?
  simp only [Node.layer_mk, Node.children_mk, List.filter_append, List.filter_cons,
    ← alike.visible]
  by_cases bare : layer.isBareGroup = true
  · rw [if_pos bare, if_pos bare]
    by_cases visible : n.layer.visible = true
    · rw [if_pos visible, if_pos visible]
      generalize before.filter (·.layer.visible) = first
      generalize after.filter (·.layer.visible) = later
      rcases first with _ | ⟨a, first⟩
      · rcases later with _ | ⟨b, later⟩
        · have absolute := alike.absolute
          cases own : n.layer.positioning == .absolute <;> rw [own] at absolute <;>
            simp [own, ← absolute]
        · rfl
      · cases first <;> rfl
    · rw [if_neg visible, if_neg visible]
  · rw [if_neg bare, if_neg bare]

end Scene

/-! ## Outlines -/

namespace Outline

open Scene (Layer Node Place)

/-- A sum over the layers of groups, from the outermost. -/
def total (measure : Layer → Float) (start : Float) (groups : List Layer) : Float :=
  groups.foldl (fun sum layer => sum + measure layer) start

/-- The outline of a node in bare groups is that of the node, moved by all of them. -/
theorem ofNode_of_wraps {n g : Node} {groups : List Layer} (wraps : n.Wraps groups g)
    (fallback : String) : ∀ dx dy : Float,
      ofNode fallback dx dy g =
        ofNode fallback (total (·.x) dx groups) (total (·.y) dy groups) n := by
  induction wraps with
  | none => exact fun dx dy => rfl
  | group visible standIn wraps ih =>
      intro dx dy
      rw [ofNode_passThrough visible standIn, ih]
      rfl

theorem ofChildren_append (parent : String) (before after : List Node) : ∀ index : Nat,
    ofChildren parent index (before ++ after) =
      ofChildren parent index before ++ ofChildren parent (index + before.length) after := by
  induction before with
  | nil =>
      intro index
      rw [ofChildren]
      rfl
  | cons n rest ih =>
      intro index
      rw [List.cons_append, ofChildren, ofChildren, ih, List.append_assoc, List.length_cons,
        Nat.add_assoc, Nat.add_comm 1]

/-- The second outline is the first with one node on the given layer moved from its own place by
`dx` and `dy`. -/
inductive Shifted (layer : Layer) (dx dy : Float) : Outline → Outline → Prop
  | here (fallback : String) (children : List Outline) :
    Shifted layer dx dy (mk layer (identity layer fallback) 0.0 0.0 children)
      (mk layer (identity layer fallback) dx dy children)
  | under {o p : Outline} (around : Layer) (id : String) (x y : Float)
    (before after : List Outline) (shifted : Shifted layer dx dy o p) :
    Shifted layer dx dy (mk around id x y (before ++ o :: after))
      (mk around id x y (before ++ p :: after))

/-- Outlines in a row of which one is shifted, if the shifted node is shown at all. -/
inductive AnyShifted (layer : Layer) (dx dy : Float) :
    Bool → List Outline → List Outline → Prop
  | shown {o p : Outline} (before after : List Outline) (shifted : Shifted layer dx dy o p) :
    AnyShifted layer dx dy true (before ++ o :: after) (before ++ p :: after)
  | hidden (outlines : List Outline) : AnyShifted layer dx dy false outlines outlines

section

variable {layer : Layer} {dx dy : Float} {shown : Bool} {first second : List Outline}

theorem AnyShifted.among (shifted : AnyShifted layer dx dy shown first second)
    (before after : List Outline) :
    AnyShifted layer dx dy shown (before ++ (first ++ after)) (before ++ (second ++ after)) := by
  cases shifted with
  | hidden outlines => exact .hidden _
  | shown left right shifted =>
      have both := AnyShifted.shown (before ++ left) (right ++ after) shifted
      simpa only [List.append_assoc, List.cons_append] using both

theorem AnyShifted.node (shifted : AnyShifted layer dx dy shown first second) (around : Layer)
    (id : String) (x y : Float) :
    AnyShifted layer dx dy shown [mk around id x y first] [mk around id x y second] := by
  cases shifted with
  | hidden outlines => exact .hidden _
  | shown left right shifted => exact .shown [] [] (.under around id x y left right shifted)

theorem AnyShifted.unshown (shifted : AnyShifted layer dx dy shown first second)
    (absent : first = []) : shown = false := by
  cases shifted with
  | shown left right shifted => simp at absent
  | hidden outlines => rfl

/-- What becomes of two nodes by themselves. -/
abbrev ShiftedAt (layer : Layer) (dx dy : Float) (shown : Bool) (x y : Float) (n m : Node) :
    Prop :=
  ∀ fallback, AnyShifted layer dx dy shown (ofNode fallback x y n).toList
    (ofNode fallback x y m).toList

variable {n m : Node}

theorem anyShifted_ofChildren (shifted : ShiftedAt layer dx dy shown 0.0 0.0 n m)
    (parent : String) (index : Nat) (before after : List Node) :
    AnyShifted layer dx dy shown (ofChildren parent index (before ++ n :: after))
      (ofChildren parent index (before ++ m :: after)) := by
  rw [ofChildren_append, ofChildren_append, ofChildren, ofChildren]
  exact (shifted _).among _ _

/-- On a node that is kept, a shifted child stays shifted, and only that. -/
theorem shifted_kept (shifted : ShiftedAt layer dx dy shown 0.0 0.0 n m) {around : Layer}
    {before after : List Node} (visible : around.visible = true)
    (first : (Node.mk around (before ++ n :: after)).passThrough? = none)
    (second : (Node.mk around (before ++ m :: after)).passThrough? = none) (x y : Float) :
    ShiftedAt layer dx dy (shown && around.kind.holdsChildren) x y
      (.mk around (before ++ n :: after)) (.mk around (before ++ m :: after)) := by
  intro fallback
  rw [ofNode_kept (n := .mk around (before ++ n :: after)) visible first,
    ofNode_kept (n := .mk around (before ++ m :: after)) visible second]
  by_cases holds : around.kind.holdsChildren = true
  · simp only [Node.layer_mk, Node.children_mk, holds, if_true, Bool.and_true]
    exact (anyShifted_ofChildren shifted _ _ before after).node around _ x y
  · simp only [Node.layer_mk, Node.children_mk, holds, Bool.false_eq_true, if_false, Bool.and_false]
    exact .hidden _

/-- Around a node that passes on its only visible child it is that child that is looked at. -/
theorem shifted_passedOn (alike : n.Alike m)
    (shifted : ∀ x y, ShiftedAt layer dx dy shown x y n m) {around : Layer}
    {before after : List Node} (visible : around.visible = true)
    (replaced : (Node.mk around (before ++ n :: after)).passThrough?.isSome = true) (x y : Float) :
    ShiftedAt layer dx dy (shown && around.kind.holdsChildren) x y
      (.mk around (before ++ n :: after)) (.mk around (before ++ m :: after)) := by
  obtain ⟨child, found⟩ := Option.isSome_iff_exists.mp replaced
  obtain ⟨child', found'⟩ := Option.isSome_iff_exists.mp
    ((alike.isSome_passThrough? around before after).symm.trans replaced)
  have bare := (Node.passThrough?_eq_some_iff.mp found).1
  have only := (Node.passThrough?_eq_some_iff.mp found).2.1
  have only' := (Node.passThrough?_eq_some_iff.mp found').2.1
  have holds : around.kind.holdsChildren = true := by
    rw [Scene.Layer.kind_of_isBareGroup (show around.isBareGroup = true from bare)]
    rfl
  simp only [Node.children_mk, List.filter_append, List.filter_cons, ← alike.visible]
    at only only'
  intro fallback
  rw [ofNode_passThrough (n := .mk around (before ++ n :: after)) visible found,
    ofNode_passThrough (n := .mk around (before ++ m :: after)) visible found', holds, Bool.and_true]
  by_cases inView : n.layer.visible = true
  · rw [if_pos inView] at only only'
    have alone : ∀ {a b c : Node} {left right : List Node}, left ++ a :: right = [c] → c = a := by
      intro a b c left right single
      rcases left with _ | ⟨d, left⟩
      · exact (List.cons.inj single).1.symm
      · simp at single
    rw [alone (b := n) only, alone (b := n) only']
    exact shifted _ _ fallback
  · rw [if_neg inView] at only only'
    have same : child = child' := List.singleton_inj.mp (only.symm.trans only')
    have absent : (ofNode fallback x y n).toList = [] := by
      rw [ofNode_hidden (Bool.eq_false_iff.mpr inView)]
      rfl
    -- A node that is not visible has no outline to be shifted.
    rw [(shifted x y fallback).unshown absent, same]
    exact .hidden _

/-- One step outwards: the node around the place is hidden, passes on what is in it, or is
kept. -/
theorem shifted_around (alike : n.Alike m)
    (shifted : ∀ x y, ShiftedAt layer dx dy shown x y n m) (around : Layer)
    (before after : List Node) (x y : Float) :
    ShiftedAt layer dx dy (shown && (around.visible && around.kind.holdsChildren)) x y
      (.mk around (before ++ n :: after)) (.mk around (before ++ m :: after)) := by
  by_cases visible : around.visible = true
  · rw [visible, Bool.true_and]
    by_cases replaced : (Node.mk around (before ++ n :: after)).passThrough?.isSome = true
    · exact shifted_passedOn alike shifted visible replaced x y
    · have kept := Bool.eq_false_iff.mpr replaced
      have kept' := (alike.isSome_passThrough? around before after).symm.trans kept
      rw [Option.isSome_eq_false_iff, Option.isNone_iff_eq_none] at kept kept'
      exact shifted_kept (shifted 0.0 0.0) visible kept kept' x y
  · intro fallback
    have hidden := Bool.eq_false_iff.mpr visible
    rw [ofNode_hidden (n := .mk around (before ++ n :: after)) hidden,
      ofNode_hidden (n := .mk around (before ++ m :: after)) hidden, hidden, Bool.false_and,
      Bool.and_false]
    exact .hidden _

end

section

variable {layer : Layer} {dx dy : Float}

/-- What is shifted at a place is shifted in the whole selection. -/
theorem shifted_fill (place : Place) : ∀ {shown : Bool} {n m : Node}, n.Alike m →
    (∀ x y, ShiftedAt layer dx dy shown x y n m) →
    AnyShifted layer dx dy (shown && place.isShown) (ofRoots (place.fill n))
      (ofRoots (place.fill m)) := by
  induction place with
  | root before after =>
      intro shown n m _ shifted
      rw [Place.isShown, Bool.and_true]
      exact anyShifted_ofChildren (shifted 0.0 0.0) "root" 0 before after
  | inside outer around before after ih =>
      intro shown n m alike shifted
      rw [Place.isShown, ← Bool.and_assoc]
      exact ih ⟨rfl, rfl⟩ (shifted_around alike shifted around before after)

/-- The outlines of a selection with a node in bare groups are those with the node by itself, but
for the offset of the node.  On the way out from the place it is only in the first step that the
node could be moved by more than its groups, and there it is kept in its place. -/
theorem shifted_of_wraps {place : Place} {n g : Node} {groups : List Layer}
    (wraps : n.Wraps groups g) (visible : n.layer.visible = true) (kept : n.passThrough? = none)
    (keeps : place.Keeps g) :
    AnyShifted n.layer (total (·.x) 0.0 groups) (total (·.y) 0.0 groups) place.isShown
      (ofRoots (place.fill n)) (ofRoots (place.fill g)) := by
  have alike := wraps.alike visible
  have shifted : ShiftedAt n.layer (total (·.x) 0.0 groups) (total (·.y) 0.0 groups) true 0.0 0.0
      n g := by
    intro fallback
    rw [ofNode_of_wraps wraps, ofNode_kept visible kept, ofNode_kept visible kept]
    exact .shown [] [] (.here fallback _)
  cases place with
  | root before after => exact anyShifted_ofChildren shifted "root" 0 before after
  | inside outer around before after =>
      obtain ⟨inView, holds, second⟩ := keeps
      have first : (Node.mk around (before ++ n :: after)).passThrough? = none := by
        have same := alike.isSome_passThrough? around before after
        rw [second] at same
        rwa [Option.isSome_none, Option.isSome_eq_false_iff, Option.isNone_iff_eq_none] at same
      have outwards := shifted_fill outer (show Node.Alike (.mk around (before ++ n :: after)) (.mk around (before ++ g :: after))
        from ⟨rfl, rfl⟩)
        (shifted_kept shifted inView first second)
      rw [Place.isShown, inView, holds]
      rwa [holds] at outwards

end

end Outline

end Handoff
