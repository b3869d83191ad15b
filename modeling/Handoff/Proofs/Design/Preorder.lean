import Handoff.Proofs.Design.Correspondence

/-!
Designs in preorder.

`Node.forestInduction` is the induction that arguments about whole forests go by: a first
node, the forest below it, and the trees after it.  `Node.preorderListUnder` lists the nodes
of a forest in preorder, each with its parent.

What is read off the boxes of a design, node by node, is what is read off the outlines of the
selection (`Design.map_preorderList_ofSelection`).
-/

namespace Handoff

namespace Design

/-! ## Forests -/

theorem Node.preorder_eq_cons (n : Node) : n.preorder = n :: Node.preorderList n.children := by
  cases n with
  | mk box children =>
      rw [Node.preorder]
      rfl

theorem Node.preorderList_mk_cons (box : Box) (children rest : List Node) :
    Node.preorderList (.mk box children :: rest) =
      .mk box children :: (Node.preorderList children ++ Node.preorderList rest) := by
  rw [Node.preorderList, Node.preorder, List.cons_append]

/-- Induction on a forest: what holds of the forest below a node and of the trees after it
holds with the node in front. -/
theorem Node.forestInduction {motive : List Node → Prop} (nil : motive [])
    (cons : ∀ box children rest, motive children → motive rest →
      motive (.mk box children :: rest)) (forest : List Node) : motive forest :=
  -- A tree is taken care of in front of every list.
  @Node.rec_1 (fun n => ∀ rest, motive rest → motive (n :: rest)) motive
    (fun box children below rest later => cons box children rest below later) nil
    (fun _ rest first later => first rest later) forest

theorem Node.forall_preorderList_mk_cons {P : Node → Prop} {box : Box}
    {children rest : List Node} :
    (∀ n ∈ Node.preorderList (.mk box children :: rest), P n) ↔
      P (.mk box children) ∧ (∀ n ∈ Node.preorderList children, P n) ∧
        ∀ n ∈ Node.preorderList rest, P n := by
  rw [Node.preorderList_mk_cons, List.forall_mem_cons, List.forall_mem_append]

theorem Node.mem_preorderList_of_mem {n : Node} {forest : List Node} (member : n ∈ forest) :
    n ∈ Node.preorderList forest := by
  induction forest with
  | nil => cases member
  | cons first rest ih =>
      cases first with
      | mk box children =>
          rw [Node.preorderList_mk_cons]
          rcases List.mem_cons.mp member with rfl | later
          · exact List.mem_cons_self
          · exact List.mem_cons_of_mem _ (List.mem_append_right _ (ih later))

/-- What is below a node of a forest is in the forest. -/
theorem Node.mem_preorderList_of_children {n m : Node} {forest : List Node} :
    n ∈ Node.preorderList forest → m ∈ Node.preorderList n.children →
      m ∈ Node.preorderList forest := by
  induction forest using Node.forestInduction with
  | nil => exact fun member => nomatch member
  | cons box children rest below after =>
      intro member inside
      rw [Node.preorderList_mk_cons, List.mem_cons, List.mem_append] at member ⊢
      rcases member with rfl | deeper | later
      · exact .inr (.inl inside)
      · exact .inr (.inl (below deeper inside))
      · exact .inr (.inr (after later inside))

/-! ## Parents -/

mutual

/-- A node with its parent, then all below it with theirs. -/
def Node.preorderUnder (parent : Option Node) : Node → List (Option Node × Node)
  | .mk box children =>
    (parent, .mk box children) :: Node.preorderListUnder (some (.mk box children)) children

/-- The nodes of a forest in preorder, each with its parent. -/
def Node.preorderListUnder (parent : Option Node) : List Node → List (Option Node × Node)
  | [] => []
  | n :: rest => n.preorderUnder parent ++ Node.preorderListUnder parent rest

end

theorem Node.preorderListUnder_mk_cons (parent : Option Node) (box : Box)
    (children rest : List Node) :
    Node.preorderListUnder parent (.mk box children :: rest) =
      (parent, .mk box children) ::
        (Node.preorderListUnder (some (.mk box children)) children ++
          Node.preorderListUnder parent rest) := by
  rw [Node.preorderListUnder, Node.preorderUnder, List.cons_append]

theorem Node.map_snd_preorderListUnder (forest : List Node) : ∀ parent : Option Node,
    (Node.preorderListUnder parent forest).map (·.2) = Node.preorderList forest := by
  induction forest using Node.forestInduction with
  | nil =>
      intro parent
      rfl
  | cons box children rest below after =>
      intro parent
      rw [Node.preorderListUnder_mk_cons, Node.preorderList_mk_cons, List.map_cons,
        List.map_append, below, after]

theorem Node.mem_of_mem_preorderListUnder {parent : Option Node} {forest : List Node}
    {visit : Option Node × Node} (member : visit ∈ Node.preorderListUnder parent forest) :
    visit.2 ∈ Node.preorderList forest := by
  rw [← Node.map_snd_preorderListUnder forest parent]
  exact List.mem_map_of_mem member

end Design

/-! ## From outlines to designs -/

namespace Outline

open Design (Box Node)

section

variable {α : Type} {s : Settings} {f : Outline → α} {g : Box → α}

mutual

theorem map_preorder_toDesign (read : ∀ o around name, g (o.box s around name) = f o) :
    ∀ (o : Outline) (around : Surroundings) (names : Registry),
      (o.toDesign s around names).1.preorder.map (fun n => g n.box) = o.preorder.map f
  | mk layer id dx dy children, around, names => by
      rw [toDesign_mk, preorder, List.map_cons, ← read (mk layer id dx dy children) around
        (names.register layer.name layer.kind.fallbackName).1]
      dsimp only
      rw [Node.preorder, List.map_cons, map_preorderList_listToDesign read children]
      rfl

theorem map_preorderList_listToDesign (read : ∀ o around name, g (o.box s around name) = f o) :
    ∀ (outlines : List Outline) (around : Surroundings) (names : Registry),
      (Node.preorderList (listToDesign s around names outlines).1).map (fun n => g n.box) =
        (preorderList outlines).map f
  | [], around, names => by
      rw [listToDesign, preorderList]
      rfl
  | o :: rest, around, names => by
      rw [listToDesign_cons, preorderList, List.map_append]
      dsimp only
      rw [Node.preorderList, List.map_append, map_preorder_toDesign read o,
        map_preorderList_listToDesign read rest]

end

end

end Outline

namespace Design

variable {α : Type} {g : Box → α}

/-- Where a root is placed plays no part in what is not read off its placement. -/
theorem map_preorderList_asRoot (blind : ∀ b : Box, g b.atRoot = g b) (nodes : List Node) :
    (Node.preorderList (nodes.map Node.asRoot)).map (fun n => g n.box) =
      (Node.preorderList nodes).map (fun n => g n.box) := by
  induction nodes with
  | nil => rfl
  | cons n rest ih =>
      cases n with
      | mk box children =>
          have own : g box.atRoot = g box := blind box
          rw [List.map_cons, Node.asRoot, Node.preorderList_mk_cons, Node.preorderList_mk_cons,
            List.map_cons, List.map_cons, List.map_append, List.map_append, ih]
          exact congrArg (· :: _) own

/-- What is read off the boxes of a design is what is read off the outlines of the
selection. -/
theorem map_preorderList_ofSelection {s : Settings} {f : Outline → α}
    (read : ∀ o around name, g (o.box s around name) = f o)
    (blind : ∀ b : Box, g b.atRoot = g b) (parent : Option Scene.Node) (roots : List Scene.Node)
    (names : Registry) :
    (Node.preorderList (ofSelection s parent roots names).1).map (fun n => g n.box) =
      (Outline.preorderList (Outline.ofRoots roots)).map f := by
  rw [ofSelection]
  dsimp only
  rw [map_preorderList_asRoot blind, Outline.map_preorderList_listToDesign read]

end Design

end Handoff
