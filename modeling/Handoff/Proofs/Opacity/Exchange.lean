import Handoff.Design.TypeName
import Handoff.Proofs.Design.Correspondence
import Handoff.Proofs.Scene.Place

/-!
A fill in the place of another.

`Scene.Node.Exchanged p q n m` says that somewhere in `n`, where it is shown, a frame, a group or an
instance has `p` as its only fill, and that `m` is `n` with `q` in its place.  `Exchanged` of
outlines and of designs says the same of these.

The design of a selection follows the exchange (`Design.exchanged_ofSelection`): all that changes in
it is the one fill, and nothing of it is missing that was not missing before.
-/

namespace Handoff

/-- Two lists are the same but in one place, where what they hold is related. -/
def InOnePlace {α : Type} (R : α → α → Prop) (items changed : List α) : Prop :=
  ∃ before a b after, items = before ++ a :: after ∧ changed = before ++ b :: after ∧ R a b

/-! ## Scenes -/

namespace Scene

/-- A layer is shown and keeps what is on it. -/
structure Layer.Holds (l : Layer) : Prop where
  visible : l.visible = true
  holds : l.kind.holdsChildren = true

/-- Somewhere in a node a fill is exchanged for another. -/
inductive Node.Exchanged (p q : Paint) : Node → Node → Prop
  | own {l : Layer} {children : List Node} (holds : l.Holds) (known : l.kind?.isSome = true)
      (only : l.fills = [p]) :
    Exchanged p q (.mk l children) (.mk { l with fills := [q] } children)
  | inside {l : Layer} {before after : List Node} {n m : Node} (holds : l.Holds)
      (changed : Exchanged p q n m) :
    Exchanged p q (.mk l (before ++ n :: after)) (.mk l (before ++ m :: after))

section

variable {l : Layer} {p q : Paint} {n m : Node}

/-- The kind of a layer that holds children does not depend on its fills. -/
theorem Layer.Holds.kind?_withFills (holds : l.Holds) (fills : List Paint) :
    ({ l with fills } : Layer).kind? = l.kind? := by
  have kind := holds.holds
  unfold Layer.kind Layer.kind? at kind
  unfold Layer.kind?
  cases image : l.hasImageFill <;> split <;> simp_all [Design.Kind.holdsChildren]

theorem Layer.Holds.kind_withFills (holds : l.Holds) (fills : List Paint) :
    ({ l with fills } : Layer).kind = l.kind := by
  rw [Layer.kind, Layer.kind, holds.kind?_withFills]

theorem Paint.visible_of_shows (p : Paint) (shows : p.shows = true) : p.visible = true :=
  (Bool.and_eq_true_iff.mp shows).1

/-- A node with a visible fill is not replaced by its only child. -/
theorem Node.passThrough?_of_fill {children : List Node} (only : l.fills = [p])
    (shown : p.visible = true) : (Node.mk l children).passThrough? = none := by
  have drawn : l.hasVisualStyle = true := by simp [Layer.hasVisualStyle, only, shown]
  unfold Node.passThrough?
  rw [if_neg]
  simp [Node.layer, Layer.isBareGroup, drawn]

/-- An exchange changes neither whether a node is shown nor how it is placed. -/
theorem Node.Exchanged.layer (changed : n.Exchanged p q m) :
    n.layer.visible = true ∧ m.layer.visible = true ∧
      m.layer.positioning = n.layer.positioning := by
  cases changed with
  | own holds => exact ⟨holds.visible, holds.visible, rfl⟩
  | inside holds => exact ⟨holds.visible, holds.visible, rfl⟩

/-- A group is replaced by the changed child after the exchange if it was replaced by that child
before, and by none otherwise. -/
theorem Node.passThrough?_exchanged {before after : List Node} (changed : n.Exchanged p q m) :
    (Node.mk l (before ++ n :: after)).passThrough? = none ∧
        (Node.mk l (before ++ m :: after)).passThrough? = none ∨
      (Node.mk l (before ++ n :: after)).passThrough? = some n ∧
        (Node.mk l (before ++ m :: after)).passThrough? = some m := by
  obtain ⟨first, second, positioning⟩ := changed.layer
  have layer : ∀ children, (Node.mk l children).layer = l := fun _ => rfl
  have children : ∀ children, (Node.mk l children).children = children := fun _ => rfl
  unfold Node.passThrough?
  simp only [layer, children, List.filter_append, List.filter_cons, first, second, if_true]
  by_cases bare : l.isBareGroup = true
  · simp only [bare, if_true]
    cases before.filter (·.layer.visible) with
    | nil =>
        cases after.filter (·.layer.visible) with
        | nil =>
            simp only [List.nil_append, positioning]
            split
            · exact .inl ⟨rfl, rfl⟩
            · exact .inr ⟨rfl, rfl⟩
        | cons other others => exact .inl ⟨rfl, rfl⟩
    | cons other others => cases others <;> exact .inl ⟨rfl, rfl⟩
  · simp only [bare, Bool.false_eq_true, if_false, and_self, true_or]

end

end Scene

/-! ## Outlines -/

namespace Outline

open Scene (Paint)

/-- Somewhere in an outline a fill is exchanged for another. -/
inductive Exchanged (p q : Paint) : Outline → Outline → Prop
  | own {l : Scene.Layer} {id : String} {dx dy : Float} {children : List Outline}
      (holds : l.Holds) (known : l.kind?.isSome = true) (only : l.fills = [p]) :
    Exchanged p q (.mk l id dx dy children) (.mk { l with fills := [q] } id dx dy children)
  | inside {l : Scene.Layer} {id : String} {dx dy : Float} {before after : List Outline}
      {o o' : Outline} (holds : l.Holds) (changed : Exchanged p q o o') :
    Exchanged p q (.mk l id dx dy (before ++ o :: after)) (.mk l id dx dy (before ++ o' :: after))

section

variable {p q : Paint}

/-- An exchange in one node is one among the outlines of its siblings. -/
theorem exchanged_ofChildren {parent : String} {before after : List Scene.Node}
    {n m : Scene.Node} {index : Nat}
    (each : ∀ fallback dx dy, ∃ o o', ofNode fallback dx dy n = some o ∧
      ofNode fallback dx dy m = some o' ∧ o.Exchanged p q o') :
    InOnePlace (Exchanged p q) (ofChildren parent index (before ++ n :: after))
      (ofChildren parent index (before ++ m :: after)) := by
  obtain ⟨o, o', first, second, changed⟩ :=
    each (childIdentity parent (index + before.length)) 0.0 0.0
  refine ⟨ofChildren parent index before, o, o',
    ofChildren parent (index + before.length + 1) after, ?_, ?_, changed⟩
  · rw [ofChildren_append, ofChildren, first]
    rfl
  · rw [ofChildren_append, ofChildren, second]
    rfl

/-- What is exchanged in a node that is shown is exchanged in its outline. -/
theorem exchanged_ofNode {n m : Scene.Node} (shown : p.visible = true) (shown' : q.visible = true)
    (changed : n.Exchanged p q m) : ∀ fallback dx dy, ∃ o o', ofNode fallback dx dy n = some o ∧
      ofNode fallback dx dy m = some o' ∧ o.Exchanged p q o' := by
  induction changed with
  | @own l children holds known only =>
      intro fallback dx dy
      have visible : (Scene.Node.mk { l with fills := [q] } children).layer.visible = true :=
        holds.visible
      refine ⟨_, _, ofNode_kept holds.visible (Scene.Node.passThrough?_of_fill only shown),
        ofNode_kept visible (Scene.Node.passThrough?_of_fill rfl shown'), ?_⟩
      have kind : (Scene.Node.mk { l with fills := [q] } children).layer.kind = l.kind :=
        holds.kind_withFills [q]
      rw [kind]
      exact .own holds known only
  | @inside l before after n m holds changed ih =>
      intro fallback dx dy
      have visible (child : Scene.Node) :
          (Scene.Node.mk l (before ++ child :: after)).layer.visible = true := holds.visible
      rcases Scene.Node.passThrough?_exchanged changed with ⟨first, second⟩ | ⟨first, second⟩
      · refine ⟨_, _, ofNode_kept (visible n) first, ofNode_kept (visible m) second, ?_⟩
        obtain ⟨earlier, o, o', later, listed, listed', changed⟩ :=
          @exchanged_ofChildren p q (identity l fallback) before after n m 0 ih
        simp only [Scene.Node.layer, Scene.Node.children, holds.holds, if_true, listed, listed']
        exact .inside holds changed
      · rw [ofNode_passThrough (visible n) first, ofNode_passThrough (visible m) second]
        exact ih fallback _ _

theorem exchanged_ofRoots {roots roots' : List Scene.Node} (shows : p.shows = true)
    (shows' : q.shows = true) (changed : InOnePlace (Scene.Node.Exchanged p q) roots roots') :
    InOnePlace (Exchanged p q) (ofRoots roots) (ofRoots roots') := by
  obtain ⟨before, n, m, after, rfl, rfl, changed⟩ := changed
  exact exchanged_ofChildren
    (exchanged_ofNode (p.visible_of_shows shows) (q.visible_of_shows shows') changed)

end

end Outline

/-! ## Designs -/

namespace Design

/-- A box with a single fill. -/
def Box.withFill (b : Box) (p : Paint) : Box :=
  { b with style := { b.style with fills := [p] } }

/-- A box that holds others and is no text. -/
structure Box.IsContainer (b : Box) : Prop where
  holds : b.kind.holdsChildren = true
  text : b.style.text = none

theorem Box.IsContainer.withFill {b : Box} (container : b.IsContainer) (p : Paint) :
    (b.withFill p).IsContainer := ⟨container.holds, container.text⟩

/-- Somewhere in a node a fill is exchanged for another. -/
inductive Node.Exchanged (p q : Paint) : Node → Node → Prop
  | own {b : Box} {children : List Node} (container : b.IsContainer) :
    Exchanged p q (.mk (b.withFill p) children) (.mk (b.withFill q) children)
  | inside {b : Box} {before after : List Node} {n m : Node} (container : b.IsContainer)
      (changed : Exchanged p q n m) :
    Exchanged p q (.mk b (before ++ n :: after)) (.mk b (before ++ m :: after))

theorem Node.Exchanged.asRoot {p q : Paint} {n m : Node} (changed : n.Exchanged p q m) :
    n.asRoot.Exchanged p q m.asRoot := by
  cases changed with
  | @own b children container =>
      exact @Exchanged.own p q b.atRoot children ⟨container.holds, container.text⟩
  | @inside b before after n m container changed =>
      exact @Exchanged.inside p q b.atRoot before after n m ⟨container.holds, container.text⟩
        changed

theorem Box.IsContainer.kind_ne {b : Box} (container : b.IsContainer) : b.kind ≠ .image ∧
    b.kind ≠ .text ∧ b.kind.isLine = false := by
  obtain ⟨holds, -⟩ := container
  cases kind : b.kind <;> simp_all [Kind.holdsChildren, Kind.isLine]

/-- How a parent is laid out. -/
def layoutOf (parent : Option Node) : Option Layout := parent.map (·.box.layout)

theorem flow?_layoutOf (parent : Option Node) :
    parent.bind (·.box.layout.flow?) = (layoutOf parent).bind (·.flow?) := by
  cases parent <;> rfl

section

variable {p q : Paint} {n m : Node}

/-- But for its fills, the box of a node is what it was. -/
theorem Node.Exchanged.box (changed : n.Exchanged p q m) :
    ∃ fills, m.box = { n.box with style := { n.box.style with fills } } := by
  cases changed with
  | own => exact ⟨[q], rfl⟩
  | inside => exact ⟨_, rfl⟩

theorem Node.Exchanged.layout (changed : n.Exchanged p q m) : m.box.layout = n.box.layout := by
  obtain ⟨fills, box⟩ := changed.box
  rw [box]

theorem hasAbsoluteChild_exchanged (changed : n.Exchanged p q m) (b : Box)
    (before after : List Node) : (Node.mk b (before ++ m :: after)).hasAbsoluteChild =
      (Node.mk b (before ++ n :: after)).hasAbsoluteChild := by
  simp [Node.hasAbsoluteChild, Node.children, changed.layout]

/-- Of a list of results, each with the node that it is made from, one result in the middle is kept
if the placement of its node is the one asked for. -/
theorem placedAs_middle {α : Type} (absolute : Bool) (before after : List (Node × α)) (n : Node)
    (a : α) : Node.placedAs absolute (before ++ (n, a) :: after) =
      Node.placedAs absolute before ++
        (if n.box.layout.placement.isAbsolute == absolute then [a] else []) ++
          Node.placedAs absolute after := by
  unfold Node.placedAs
  cases own : n.box.layout.placement.isAbsolute == absolute <;> simp [own]

/-- The type names of the roots do not depend on fills. -/
theorem typeNames_exchanged {forest forest' : List Node}
    (changed : InOnePlace (Node.Exchanged p q) forest forest') :
    typeNames forest' = typeNames forest := by
  obtain ⟨before, n, m, after, rfl, rfl, changed⟩ := changed
  obtain ⟨fills, box⟩ := changed.box
  simp only [typeNames, List.map_append, List.map_cons, box]

end

end Design

namespace Outline

open Design (Box Node)

section

variable {s : Settings} {p q : Scene.Paint} {l : Scene.Layer}

theorem isContainer_box (holds : l.Holds) (id : String) (dx dy : Float)
    (children : List Outline) (around : Surroundings) (name : String) :
    ((mk l id dx dy children).box s around name).IsContainer where
  holds := holds.holds
  text := by
    have kind := holds.holds
    unfold Outline.box Outline.style
    simp only [Outline.layer]
    split
    · rename_i kind' known
      unfold Scene.Layer.style
      rw [Scene.Layer.kind, known] at kind
      refine if_neg ?_
      rintro rfl
      cases kind
    · rfl

/-- The box of a layer with the single fill `q`, which is drawn as `P`, is the box of the layer with
`P` for its fills. -/
theorem box_withFill {P : Design.Paint} (holds : l.Holds) (known : l.kind?.isSome = true)
    (shows : q.shows = true) (drawn : q.toDesign s l.width l.height = .ok P) (id : String)
    (dx dy : Float) (children : List Outline) (around : Surroundings) (name : String) :
    (mk { l with fills := [q] } id dx dy children).box s around name =
      ((mk l id dx dy children).box s around name).withFill P := by
  obtain ⟨kind, known⟩ := Option.isSome_iff_exists.mp known
  have known' := (holds.kind?_withFills [q]).trans known
  have fills :
      Scene.counterparts (({ l with fills := [q] } : Scene.Layer).fillResults s) = [P] := by
    simp [Scene.Layer.fillResults, Scene.counterparts, shows, drawn, Except.toOption]
  unfold Outline.box Outline.style Box.withFill
  simp only [Outline.layer, known, known', holds.kind_withFills]
  unfold Scene.Layer.style
  rw [fills]
  rfl

/-- If the single fill of a layer is drawn as `P`, then `P` is the single fill of its box. -/
theorem box_eq_withFill {P : Design.Paint} (holds : l.Holds) (known : l.kind?.isSome = true)
    (only : l.fills = [p]) (shows : p.shows = true)
    (drawn : p.toDesign s l.width l.height = .ok P) (id : String) (dx dy : Float)
    (children : List Outline) (around : Surroundings) (name : String) :
    (mk l id dx dy children).box s around name =
      ((mk l id dx dy children).box s around name).withFill P := by
  have same : ({ l with fills := [p] } : Scene.Layer) = l := by rw [← only]
  have box := box_withFill holds known shows drawn id dx dy children around name
  rwa [same] at box

theorem listToDesign_append (later outlines : List Outline) (around : Surroundings)
    (names : Registry) : listToDesign s around names (outlines ++ later) =
      (let first := listToDesign s around names outlines
       let others := listToDesign s around first.2 later
       (first.1 ++ others.1, others.2)) := by
  induction outlines generalizing names with
  | nil =>
      rw [List.nil_append, listToDesign]
      rfl
  | cons o rest ih =>
      rw [List.cons_append, listToDesign_cons, listToDesign_cons]
      simp only [ih, List.cons_append]

/-- The designs of two outlines differ by an exchange, and leave the same names. -/
def Trades (s : Settings) (P Q : Design.Paint) (o o' : Outline) : Prop :=
  ∀ around names, (o.toDesign s around names).1.Exchanged P Q (o'.toDesign s around names).1 ∧
    (o'.toDesign s around names).2 = (o.toDesign s around names).2

theorem trades_listToDesign {P Q : Design.Paint} {o o' : Outline} (trades : Trades s P Q o o')
    (before after : List Outline) (around : Surroundings) (names : Registry) :
    InOnePlace (Node.Exchanged P Q) (listToDesign s around names (before ++ o :: after)).1
        (listToDesign s around names (before ++ o' :: after)).1 ∧
      (listToDesign s around names (before ++ o' :: after)).2 =
        (listToDesign s around names (before ++ o :: after)).2 := by
  obtain ⟨changed, taken⟩ := trades around (listToDesign s around names before).2
  simp only [listToDesign_append, listToDesign_cons, taken]
  exact ⟨⟨_, _, _, _, rfl, rfl, changed⟩, trivial⟩

/-- The design of an outline follows an exchange in it, if both fills are drawn on a node of the
size that it is made on. -/
theorem trades_of_exchanged {o o' : Outline} (changed : o.Exchanged p q o')
    (shows : p.shows = true) (shows' : q.shows = true) : ∃ width height, ∀ {P Q : Design.Paint},
      p.toDesign s width height = .ok P → q.toDesign s width height = .ok Q →
        Trades s P Q o o' := by
  induction changed with
  | @own l id dx dy children holds known only =>
      refine ⟨l.width, l.height, fun drawn drawn' around names => ?_⟩
      rw [toDesign_mk, toDesign_mk]
      simp only [holds.kind_withFills, box_withFill holds known shows' drawn']
      rw [box_eq_withFill holds known only shows drawn]
      exact ⟨.own (isContainer_box holds id dx dy children _ _), rfl⟩
  | @inside l id dx dy before after o o' holds changed ih =>
      obtain ⟨width, height, ih⟩ := ih
      refine ⟨width, height, fun drawn drawn' around names => ?_⟩
      rw [toDesign_mk, toDesign_mk]
      have below := trades_listToDesign (ih drawn drawn') before after
        (.inside ((mk l id dx dy (before ++ o :: after)).box s around
          (names.register l.name l.kind.fallbackName).1).layout.mode)
        (names.register l.name l.kind.fallbackName).2
      obtain ⟨⟨earlier, n, m, later, listed, listed', inner⟩, taken⟩ := below
      have box : ∀ name, (mk l id dx dy (before ++ o' :: after)).box s around name =
          (mk l id dx dy (before ++ o :: after)).box s around name := fun _ => rfl
      simp only [box, listed, listed', taken]
      exact ⟨.inside (isContainer_box holds id dx dy _ _ _) inner, trivial⟩

theorem preorderList_append (first later : List Outline) :
    preorderList (first ++ later) = preorderList first ++ preorderList later := by
  induction first with
  | nil => rfl
  | cons o rest ih => rw [List.cons_append, preorderList, preorderList, ih, List.append_assoc]

/-- A single fill that is drawn is not refused. -/
theorem reasons_fillResults (drawn : ∀ width height, ∃ P, p.toDesign s width height = .ok P)
    (only : l.fills = [p]) : Scene.reasons (l.fillResults s) = [] := by
  obtain ⟨P, drawn⟩ := drawn l.width l.height
  cases shows : p.shows <;> simp [Scene.Layer.fillResults, Scene.reasons, only, shows, drawn]

/-- What is missing from the designs stays the same if both fills are drawn. -/
theorem warnings_exchanged (drawn : ∀ width height, ∃ P, p.toDesign s width height = .ok P)
    (drawn' : ∀ width height, ∃ Q, q.toDesign s width height = .ok Q) {o o' : Outline}
    (changed : o.Exchanged p q o') (before after : List Outline) :
    warnings s (before ++ o' :: after) = warnings s (before ++ o :: after) := by
  induction changed generalizing before after with
  | @own l id dx dy children holds known only =>
      obtain ⟨kind, known⟩ := Option.isSome_iff_exists.mp known
      have known' := (holds.kind?_withFills [q]).trans known
      have own : (mk { l with fills := [q] } id dx dy children).refusals s =
          (mk l id dx dy children).refusals s := by
        unfold Outline.refusals Scene.Layer.refusals
        simp only [Outline.layer, known, known', reasons_fillResults drawn only,
          @reasons_fillResults s q { l with fills := [q] } drawn' rfl]
        rfl
      simp only [warnings, preorderList_append, preorderList, preorder, List.flatMap_append,
        List.flatMap_cons, own]
      rfl
  | @inside l id dx dy earlier later o o' holds changed ih =>
      have inner := ih earlier later
      simp only [warnings, preorderList_append, preorderList, List.flatMap_append] at inner
      simp only [warnings, preorderList_append, preorderList, preorder, List.flatMap_append,
        List.flatMap_cons, inner]
      rfl

end

end Outline

namespace Design

/-- The design of a selection follows an exchange in what is shown of it. -/
theorem exchanged_ofSelection {s : Settings} {p q : Scene.Paint} {roots roots' : List Scene.Node}
    (shows : p.shows = true) (shows' : q.shows = true)
    (changed : InOnePlace (Scene.Node.Exchanged p q) roots roots')
    (parent : Option Scene.Node) (names : Registry) : ∃ width height, ∀ {P Q : Paint},
      p.toDesign s width height = .ok P → q.toDesign s width height = .ok Q →
        InOnePlace (Node.Exchanged P Q) (ofSelection s parent roots names).1
          (ofSelection s parent roots' names).1 := by
  obtain ⟨before, o, o', after, listed, listed', changed⟩ :=
    Outline.exchanged_ofRoots shows shows' changed
  obtain ⟨width, height, trades⟩ := Outline.trades_of_exchanged changed shows shows'
  refine ⟨width, height, fun drawn drawn' => ?_⟩
  obtain ⟨⟨earlier, n, m, later, made, made', changed⟩, -⟩ :=
    Outline.trades_listToDesign (trades drawn drawn') before after (.ofParent s parent) names
  unfold ofSelection
  rw [listed, listed']
  refine ⟨earlier.map Node.asRoot, n.asRoot, m.asRoot, later.map Node.asRoot, ?_, ?_,
    changed.asRoot⟩
  · simp [made]
  · simp [made']

theorem warningsOf_exchanged {s : Settings} {p q : Scene.Paint} {roots roots' : List Scene.Node}
    (shows : p.shows = true) (shows' : q.shows = true)
    (drawn : ∀ width height, ∃ P, p.toDesign s width height = .ok P)
    (drawn' : ∀ width height, ∃ Q, q.toDesign s width height = .ok Q)
    (changed : InOnePlace (Scene.Node.Exchanged p q) roots roots') :
    warningsOf s roots' = warningsOf s roots := by
  obtain ⟨before, o, o', after, listed, listed', changed⟩ :=
    Outline.exchanged_ofRoots shows shows' changed
  rw [warningsOf, warningsOf, listed, listed']
  exact Outline.warnings_exchanged drawn drawn' changed before after

end Design

end Handoff
