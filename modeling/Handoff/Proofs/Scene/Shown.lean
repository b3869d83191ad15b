import Handoff.Outline

/-!
What of a scene is shown, said without any bookkeeping: `Node.shown` drops hidden nodes,
puts the stand-in of a bare group in its place and leaves children only on nodes that may
hold them.  It keeps neither fallback identities nor offsets, so it is a statement about
the selection alone.

`Outline.scene` forgets what an outline adds to the scene.  The main statement is
`Outline.scenes_ofRoots`: the outlines of a selection, with that forgotten, are the nodes
shown of it, in order and each with what is shown below it.

`Node.shownInduction` follows the three ways in which a node can be treated; every later
argument about outlines goes through it.
-/

namespace Handoff

namespace Scene

/-! ## Stand-ins -/

/-- A node has a stand-in exactly when it is a bare group with one visible child, and
that child is not placed absolutely. -/
theorem Node.passThrough?_eq_some_iff {n child : Node} :
    n.passThrough? = some child ↔
      n.layer.isBareGroup = true ∧
        n.children.filter (·.layer.visible) = [child] ∧
        child.layer.positioning ≠ .absolute := by
  unfold Node.passThrough?
  by_cases bare : n.layer.isBareGroup = true
  · rw [if_pos bare]
    cases visible : n.children.filter (·.layer.visible) with
    | nil => simp
    | cons first rest =>
        cases rest with
        | cons second rest => simp
        | nil =>
            by_cases absolute : first.layer.positioning = .absolute
            · simp only [absolute, beq_self_eq_true, if_true, reduceCtorEq, List.cons.injEq,
                and_true, false_iff]
              rintro ⟨-, rfl, other⟩
              exact other absolute
            · simp only [beq_eq_false_iff_ne.mpr absolute, Bool.false_eq_true, if_false,
                Option.some.injEq, bare, true_and, List.cons.injEq, and_true]
              constructor
              · rintro rfl
                exact ⟨rfl, absolute⟩
              · exact And.left
  · rw [if_neg bare]
    simp [bare]

theorem Node.passThrough?_mem {n child : Node} (standIn : n.passThrough? = some child) :
    child ∈ n.children ∧ child.layer.visible = true := by
  have visible := (Node.passThrough?_eq_some_iff.mp standIn).2.1
  have member : child ∈ n.children.filter (·.layer.visible) := by
    rw [visible]
    exact List.mem_singleton_self child
  exact List.mem_filter.mp member

theorem Node.sizeOf_lt_of_mem {n child : Node} (member : child ∈ n.children) :
    sizeOf child < sizeOf n := by
  cases n with
  | mk layer children =>
      have smaller := List.sizeOf_lt_of_mem (show child ∈ children from member)
      simp only [Node.mk.sizeOf_spec]
      omega

/-! ## Shown nodes -/

/-- What is shown for a node: nothing for a hidden one, what is shown for its stand-in if
there is one, else the node itself with what is shown of its children. -/
def Node.shown (n : Node) : List Node :=
  if n.layer.visible then
    match _standIn : n.passThrough? with
    | some child => child.shown
    | none =>
      [mk n.layer
        (if n.layer.kind.holdsChildren then n.children.attach.flatMap fun c => c.1.shown
        else [])]
  else []
termination_by sizeOf n
decreasing_by
  · exact Node.sizeOf_lt_of_mem (Node.passThrough?_mem _standIn).1
  · exact Node.sizeOf_lt_of_mem c.2

/-- What is shown of a selection. -/
def shownForest (roots : List Node) : List Node :=
  roots.flatMap Node.shown

theorem Node.shown_hidden {n : Node} (hidden : n.layer.visible = false) : n.shown = [] := by
  rw [Node.shown, hidden]
  rfl

theorem Node.shown_passThrough {n child : Node} (visible : n.layer.visible = true)
    (standIn : n.passThrough? = some child) : n.shown = child.shown := by
  rw [Node.shown, if_pos visible]
  split
  · rename_i other found
    rw [Option.some.inj (found.symm.trans standIn)]
  · rename_i missing
    cases missing.symm.trans standIn

theorem Node.shown_kept {n : Node} (visible : n.layer.visible = true)
    (kept : n.passThrough? = none) :
    n.shown = [mk n.layer (if n.layer.kind.holdsChildren then shownForest n.children else [])] := by
  rw [Node.shown, if_pos visible]
  split
  · rename_i other found
    cases found.symm.trans kept
  · have children : (n.children.attach.flatMap fun c => c.1.shown) = shownForest n.children := by
      unfold shownForest
      rw [← List.flatMap_map Subtype.val, List.attach_map_subtype_val]
    rw [children]

/-- Induction on a scene along the treatment of its nodes: a hidden node ends it, a node
with a stand-in passes it on, and any other node has it for all of its children. -/
theorem Node.shownInduction {motive : Node → Prop}
    (hidden : ∀ n : Node, n.layer.visible = false → motive n)
    (passThrough : ∀ n child : Node, n.layer.visible = true →
      n.passThrough? = some child → motive child → motive n)
    (kept : ∀ n : Node, n.layer.visible = true → n.passThrough? = none →
      (∀ child ∈ n.children, motive child) → motive n)
    (n : Node) : motive n := by
  induction n using Node.shown.induct with
  | case1 n visible child standIn ih => exact passThrough n child visible standIn ih
  | case2 n visible standIn ih =>
      exact kept n visible standIn fun child member => ih ⟨child, member⟩
  | case3 n invisible => exact hidden n (Bool.eq_false_iff.mpr invisible)

end Scene

/-! ## Outlines of a scene -/

namespace Outline

open Scene (Node shownForest)

theorem ofNode_hidden {fallback : String} {dx dy : Float} {n : Node}
    (hidden : n.layer.visible = false) : ofNode fallback dx dy n = none := by
  cases n with
  | mk layer children =>
      rw [ofNode]
      simp only [show layer.visible = false from hidden, Bool.not_false, if_true]

mutual

/-- A visible node has an outline, whatever is below it. -/
theorem isSome_ofNode (fallback : String) (dx dy : Float) : ∀ n : Node,
    n.layer.visible = true → (ofNode fallback dx dy n).isSome = true
  | .mk layer children, visible => by
      rw [ofNode]
      simp only [show layer.visible = true from visible, Bool.not_true, Bool.false_eq_true,
        if_false]
      by_cases replaced : standIn layer children = true
      · rw [if_pos replaced]
        obtain ⟨child, standIn⟩ := Option.isSome_iff_exists.mp replaced
        exact isSome_firstVisible fallback _ _ children ⟨child, Node.passThrough?_mem standIn⟩
      · rw [if_neg replaced]
        rfl

/-- The search for a stand-in ends at a visible child. -/
theorem isSome_firstVisible (fallback : String) (dx dy : Float) : ∀ nodes : List Node,
    (∃ child ∈ nodes, child.layer.visible = true) →
      (firstVisible fallback dx dy nodes).isSome = true
  | [], present => by
      obtain ⟨child, member, -⟩ := present
      cases member
  | n :: rest, present => by
      rw [firstVisible]
      cases outline : ofNode fallback dx dy n with
      | some o => rfl
      | none =>
          obtain ⟨child, member, visible⟩ := present
          rcases List.mem_cons.mp member with same | member
          · rw [same] at visible
            have outlined := isSome_ofNode fallback dx dy n visible
            rw [outline] at outlined
            cases outlined
          · exact isSome_firstVisible fallback dx dy rest ⟨child, member, visible⟩

end

/-- Among children of which one is visible, that one is found. -/
theorem firstVisible_of_filter {fallback : String} {dx dy : Float} {child : Node} :
    ∀ {nodes : List Node}, nodes.filter (·.layer.visible) = [child] →
      firstVisible fallback dx dy nodes = ofNode fallback dx dy child
  | [], only => by cases only
  | n :: rest, only => by
      rw [firstVisible]
      by_cases visible : n.layer.visible = true
      · simp only [List.filter_cons, visible, if_true, List.cons.injEq] at only
        obtain ⟨o, outline⟩ :=
          Option.isSome_iff_exists.mp (isSome_ofNode fallback dx dy n visible)
        rw [outline, ← only.1, outline]
      · simp only [List.filter_cons, visible, Bool.false_eq_true, if_false] at only
        rw [ofNode_hidden (Bool.eq_false_iff.mpr visible)]
        exact firstVisible_of_filter only

/-- The outline of a node with a stand-in is that of the stand-in, moved by the node. -/
theorem ofNode_passThrough {fallback : String} {dx dy : Float} {n child : Node}
    (visible : n.layer.visible = true) (found : n.passThrough? = some child) :
    ofNode fallback dx dy n = ofNode fallback (dx + n.layer.x) (dy + n.layer.y) child := by
  cases n with
  | mk layer children =>
      have replaced : standIn layer children = true := by
        rw [standIn, found]
        rfl
      rw [ofNode]
      simp only [show layer.visible = true from visible, replaced, Bool.not_true,
        Bool.false_eq_true, if_false, if_true]
      exact firstVisible_of_filter (Node.passThrough?_eq_some_iff.mp found).2.1

/-- A visible node without a stand-in is kept. -/
theorem ofNode_kept {fallback : String} {dx dy : Float} {n : Node}
    (visible : n.layer.visible = true) (kept : n.passThrough? = none) :
    ofNode fallback dx dy n =
      some (mk n.layer (identity n.layer fallback) dx dy
        (if n.layer.kind.holdsChildren then ofChildren (identity n.layer fallback) 0 n.children
        else [])) := by
  cases n with
  | mk layer children =>
      have unreplaced : standIn layer children = false := by
        rw [standIn, kept]
        rfl
      rw [ofNode]
      simp only [show layer.visible = true from visible, unreplaced, Bool.not_true,
        Bool.false_eq_true, if_false]
      rfl

/-! ## Forgetting what an outline adds -/

mutual

/-- The scene node of an outline, with the scene nodes of what is shown below it. -/
def scene : Outline → Node
  | mk layer _ _ _ children => .mk layer (scenes children)

/-- The scene nodes of outlines. -/
def scenes : List Outline → List Node
  | [] => []
  | o :: rest => o.scene :: scenes rest

end

theorem scenes_eq_map : ∀ outlines : List Outline, scenes outlines = outlines.map scene
  | [] => rfl
  | o :: rest => congrArg (o.scene :: ·) (scenes_eq_map rest)

theorem scenes_append (left right : List Outline) :
    scenes (left ++ right) = scenes left ++ scenes right := by
  simp only [scenes_eq_map, List.map_append]

/-- If each node has the outlines of what is shown for it, so have nodes in turn. -/
theorem scenes_ofChildren_of_ofNode {parent : String} :
    ∀ {nodes : List Node} (index : Nat),
      (∀ n ∈ nodes, ∀ fallback dx dy, scenes (ofNode fallback dx dy n).toList = n.shown) →
      scenes (ofChildren parent index nodes) = shownForest nodes
  | [], _, _ => by
      rw [ofChildren]
      rfl
  | n :: rest, index, each => by
      rw [ofChildren, scenes_append, each n List.mem_cons_self,
        scenes_ofChildren_of_ofNode (index + 1) fun m member =>
          each m (List.mem_cons_of_mem n member)]
      rfl

/-- The outline of a node is what is shown for it. -/
theorem scenes_ofNode (n : Node) : ∀ (fallback : String) (dx dy : Float),
    scenes (ofNode fallback dx dy n).toList = n.shown := by
  induction n using Node.shownInduction with
  | hidden n hidden =>
      intro fallback dx dy
      rw [ofNode_hidden hidden, Node.shown_hidden hidden]
      rfl
  | passThrough n child visible found ih =>
      intro fallback dx dy
      rw [ofNode_passThrough visible found, Node.shown_passThrough visible found]
      exact ih fallback _ _
  | kept n visible kept ih =>
      intro fallback dx dy
      rw [ofNode_kept visible kept, Node.shown_kept visible kept]
      simp only [Option.toList_some, scenes, scene, List.cons.injEq, Node.mk.injEq, true_and,
        and_true]
      split
      · exact scenes_ofChildren_of_ofNode 0 ih
      · rfl

/-- The outlines of a selection are what is shown of it. -/
theorem scenes_ofRoots (roots : List Node) : scenes (ofRoots roots) = shownForest roots :=
  scenes_ofChildren_of_ofNode 0 fun n _ => scenes_ofNode n

/-! ## What holds of every outline -/

theorem mem_preorder_self (o : Outline) : o ∈ o.preorder := by
  cases o with
  | mk layer id dx dy children =>
      rw [preorder]
      exact List.mem_cons_self

theorem mem_preorderList {p : Outline} {outlines : List Outline} :
    p ∈ preorderList outlines ↔ ∃ o ∈ outlines, p ∈ o.preorder := by
  induction outlines with
  | nil => simp [preorderList]
  | cons o rest ih => simp [preorderList, ih]

section

variable {P : Outline → Prop}

/-- What holds below each of some nodes holds below all of them in turn. -/
theorem forall_ofChildren_of_ofNode {parent : String} :
    ∀ {nodes : List Node} (index : Nat),
      (∀ n ∈ nodes, ∀ fallback dx dy, ∀ p ∈ preorderList (ofNode fallback dx dy n).toList, P p) →
      ∀ p ∈ preorderList (ofChildren parent index nodes), P p
  | [], _, _, p, member => by
      rw [ofChildren] at member
      cases member
  | n :: rest, index, each, p, member => by
      rw [ofChildren] at member
      obtain ⟨o, found, inside⟩ := mem_preorderList.mp member
      rcases List.mem_append.mp found with first | later
      · exact each n List.mem_cons_self _ _ _ p (mem_preorderList.mpr ⟨o, first, inside⟩)
      · exact forall_ofChildren_of_ofNode (index + 1)
          (fun m among => each m (List.mem_cons_of_mem n among)) p
          (mem_preorderList.mpr ⟨o, later, inside⟩)

/-- A property of the outlines of kept nodes holds of all outlines below a node. -/
theorem forall_ofNode
    (kept : ∀ n : Node, n.layer.visible = true → n.passThrough? = none →
      ∀ fallback dx dy children, P (mk n.layer (identity n.layer fallback) dx dy children))
    (n : Node) : ∀ (fallback : String) (dx dy : Float),
      ∀ p ∈ preorderList (ofNode fallback dx dy n).toList, P p := by
  induction n using Node.shownInduction with
  | hidden n hidden =>
      intro fallback dx dy p member
      rw [ofNode_hidden hidden] at member
      cases member
  | passThrough n child visible found ih =>
      intro fallback dx dy p member
      rw [ofNode_passThrough visible found] at member
      exact ih fallback _ _ p member
  | kept n visible unreplaced ih =>
      intro fallback dx dy p member
      rw [ofNode_kept visible unreplaced] at member
      simp only [Option.toList_some, preorderList, preorder, List.append_nil,
        List.mem_cons] at member
      rcases member with rfl | below
      · exact kept n visible unreplaced fallback dx dy _
      · split at below
        · exact forall_ofChildren_of_ofNode 0 ih p below
        · cases below

/-- A property of the outlines of kept nodes holds throughout the outlines of a
selection. -/
theorem forall_ofRoots
    (kept : ∀ n : Node, n.layer.visible = true → n.passThrough? = none →
      ∀ fallback dx dy children, P (mk n.layer (identity n.layer fallback) dx dy children))
    (roots : List Node) : ∀ p ∈ preorderList (ofRoots roots), P p :=
  forall_ofChildren_of_ofNode 0 fun n _ => forall_ofNode kept n

end

/-- A node that has an id of its own is identified by it. -/
def KeepsId (o : Outline) : Prop :=
  o.layer.id ≠ "" → o.id = o.layer.id

theorem keepsId_ofRoots (roots : List Node) : ∀ p ∈ preorderList (ofRoots roots), p.KeepsId :=
  forall_ofRoots (fun _ _ _ _ _ _ _ given => if_neg given) roots

end Outline

end Handoff
