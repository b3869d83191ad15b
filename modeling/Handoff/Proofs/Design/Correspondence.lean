import Handoff.Design.OfScene.Forest
import Handoff.Proofs.Scene.Shown

/-!
A design beside the selection it was made from.

`Node.Follows R` compares two trees: they have the same shape, and at every node `R`
relates the box above it in the design, the layer of the scene and the box of the design.
`Design.followsAll_ofSelection` is how such a comparison is shown of every design: once
for a root and once for a node inside another, of an outline of which only is known that
it keeps its id.

The main statement is `Design.build_follows_shown`: the design of a selection is what is
shown of it, node for node and in order, and a selection has no design exactly when
nothing of it is shown.
-/

namespace Handoff

open Scene (shownForest)

/-! ## Trees side by side -/

namespace Design

/-- A relation between the box above a node, its layer and its box. -/
abbrev Agreement := Option Box → Scene.Layer → Box → Prop

mutual

/-- Two trees have the same shape, and their nodes agree. -/
def Node.Follows (R : Agreement) (above : Option Box) : Scene.Node → Node → Prop
  | .mk layer sources, .mk box children =>
    R above layer box ∧ Node.FollowsAll R (some box) sources children

/-- Two forests have the same shape, and their nodes agree. -/
def Node.FollowsAll (R : Agreement) (above : Option Box) : List Scene.Node → List Node → Prop
  | [], [] => True
  | source :: sources, n :: rest =>
    Node.Follows R above source n ∧ Node.FollowsAll R above sources rest
  | _, _ => False

end

@[simp] theorem Node.followsAll_nil {R : Agreement} {above : Option Box} :
    Node.FollowsAll R above [] [] :=
  True.intro

/-- Forests side by side have as many trees. -/
theorem Node.FollowsAll.length_eq {R : Agreement} {above : Option Box} :
    ∀ {sources : List Scene.Node} {nodes : List Node},
      Node.FollowsAll R above sources nodes → nodes.length = sources.length
  | [], [], _ => rfl
  | _ :: _, _ :: _, follows => congrArg (· + 1) (Node.FollowsAll.length_eq follows.2)

/-- A box with its node placed as a root. -/
def Box.atRoot (b : Box) : Box :=
  { b with layout := { b.layout with placement := .root } }

end Design

/-! ## From outlines to designs -/

namespace Outline

open Design (Agreement Box Node)

/-- The design of a node: its name is taken before those of the nodes below it. -/
theorem toDesign_mk (s : Settings) (around : Surroundings) (names : Registry)
    (layer : Scene.Layer) (id : String) (dx dy : Float) (children : List Outline) :
    toDesign s around names (mk layer id dx dy children) =
      (let taken := names.register layer.name layer.kind.fallbackName
       let box := (mk layer id dx dy children).box s around taken.1
       let below := listToDesign s (.inside box.layout.mode) taken.2 children
       (.mk box below.1, below.2)) := by
  rw [toDesign]

/-- The designs of nodes in turn, the later ones with the names that the first leaves. -/
theorem listToDesign_cons (s : Settings) (around : Surroundings) (names : Registry)
    (o : Outline) (rest : List Outline) :
    listToDesign s around names (o :: rest) =
      (let first := o.toDesign s around names
       let others := listToDesign s around first.2 rest
       (first.1 :: others.1, others.2)) := by
  rw [listToDesign]

section

variable {R : Agreement} {s : Settings}

mutual

/-- A design agrees with the scene if its nodes do, each inside the one above it. -/
theorem follows_toDesign {above : Box} : ∀ (o : Outline) (names : Registry),
    (∀ p ∈ o.preorder, ∀ (above : Box) (name : String),
      R (some above) p.layer (p.box s (.inside above.layout.mode) name)) →
    Node.Follows R (some above) o.scene (o.toDesign s (.inside above.layout.mode) names).1
  | .mk layer id dx dy children, names, agree => by
      rw [toDesign_mk, scene]
      refine ⟨agree (mk layer id dx dy children) (mem_preorder_self _) above _, ?_⟩
      refine followsAll_listToDesign children _ fun p member => ?_
      exact agree p (by rw [preorder]; exact List.mem_cons_of_mem _ member)

/-- The designs of nodes inside another agree with the scene if all their nodes do. -/
theorem followsAll_listToDesign {above : Box} : ∀ (outlines : List Outline) (names : Registry),
    (∀ p ∈ preorderList outlines, ∀ (above : Box) (name : String),
      R (some above) p.layer (p.box s (.inside above.layout.mode) name)) →
    Node.FollowsAll R (some above) (scenes outlines)
      (listToDesign s (.inside above.layout.mode) names outlines).1
  | [], _, _ => by
      rw [listToDesign, scenes]
      exact Node.followsAll_nil
  | o :: rest, names, agree => by
      rw [listToDesign_cons, scenes]
      refine ⟨follows_toDesign o names fun p member => ?_,
        followsAll_listToDesign rest _ fun p member => ?_⟩
      · exact agree p (by rw [preorderList]; exact List.mem_append_left _ member)
      · exact agree p (by rw [preorderList]; exact List.mem_append_right _ member)

end

/-- The roots of a design agree with the scene if they do as roots and all other nodes do
inside the one above them. -/
theorem followsAll_asRoot {around : Surroundings} :
    ∀ (outlines : List Outline) (names : Registry),
      (∀ o ∈ outlines, ∀ name : String, R none o.layer (o.box s around name).atRoot) →
      (∀ p ∈ preorderList outlines, ∀ (above : Box) (name : String),
        R (some above) p.layer (p.box s (.inside above.layout.mode) name)) →
      Node.FollowsAll R none (scenes outlines)
        ((listToDesign s around names outlines).1.map Node.asRoot)
  | [], _, _, _ => by
      rw [listToDesign, scenes]
      exact Node.followsAll_nil
  | .mk layer id dx dy children :: rest, names, root, inner => by
      rw [listToDesign_cons, toDesign_mk, scenes, scene]
      refine ⟨⟨root _ List.mem_cons_self _, ?_⟩, followsAll_asRoot rest _ ?_ ?_⟩
      · refine @followsAll_listToDesign R s (Box.atRoot _) children _ fun p member => ?_
        refine inner p ?_
        rw [preorderList, preorder]
        exact List.mem_append_left _ (List.mem_cons_of_mem _ member)
      · exact fun o member => root o (List.mem_cons_of_mem _ member)
      · intro p member
        refine inner p ?_
        rw [preorderList]
        exact List.mem_append_right _ member

end

end Outline

namespace Design

/-- Every design agrees with what is shown of the selection if the outlines of the selection
do, as roots and as inner nodes.  The names that are taken before play no part. -/
theorem followsAll_ofOutlines {R : Agreement} (s : Settings) (parent : Option Scene.Node)
    (roots : List Scene.Node) (names : Registry)
    (root : ∀ o ∈ Outline.preorderList (Outline.ofRoots roots), ∀ name : String,
      R none o.layer (o.box s (.ofParent s parent) name).atRoot)
    (inner : ∀ o ∈ Outline.preorderList (Outline.ofRoots roots), ∀ (above : Box) (name : String),
      R (some above) o.layer (o.box s (.inside above.layout.mode) name)) :
    Node.FollowsAll R none (shownForest roots) (ofSelection s parent roots names).1 := by
  rw [← Outline.scenes_ofRoots]
  refine Outline.followsAll_asRoot (Outline.ofRoots roots) names (fun o member => ?_) inner
  exact root o (Outline.mem_preorderList.mpr ⟨o, member, o.mem_preorder_self⟩)

/-- Every design agrees with what is shown of the selection if all outlines do that keep the
ids of their layers. -/
theorem followsAll_ofSelection {R : Agreement} (s : Settings) (parent : Option Scene.Node)
    (roots : List Scene.Node) (names : Registry)
    (root : ∀ o : Outline, o.KeepsId → ∀ name : String,
      R none o.layer (o.box s (.ofParent s parent) name).atRoot)
    (inner : ∀ o : Outline, o.KeepsId → ∀ (above : Box) (name : String),
      R (some above) o.layer (o.box s (.inside above.layout.mode) name)) :
    Node.FollowsAll R none (shownForest roots) (ofSelection s parent roots names).1 :=
  followsAll_ofOutlines s parent roots names
    (fun o member => root o (Outline.keepsId_ofRoots roots o member))
    (fun o member => inner o (Outline.keepsId_ofRoots roots o member))

/-- A selection has its design as long as that is not empty. -/
theorem build_eq_ok {s : Settings} {parent : Option Scene.Node} {roots : List Scene.Node}
    {forest : List Node} (built : Design.build s parent roots = .ok forest) :
    (ofSelection s parent roots .empty).1 = forest ∧ forest ≠ [] := by
  unfold Design.build at built
  split at built
  · cases built
  · rename_i present
    cases built
    exact ⟨rfl, present⟩

/-- A selection without a design has an empty one. -/
theorem build_eq_error {s : Settings} {parent : Option Scene.Node} {roots : List Scene.Node}
    {cause : ConversionError} (refused : Design.build s parent roots = .error cause) :
    (ofSelection s parent roots .empty).1 = [] ∧ cause = .emptySelection := by
  unfold Design.build at refused
  split at refused
  · rename_i missing
    cases refused
    exact ⟨missing, rfl⟩
  · cases refused

/-! ## What is carried over -/

/-- A box is of the kind of its layer, has the name that the layer was given, and is
identified by the id of the layer if that has one. -/
structure Box.Carries (layer : Scene.Layer) (box : Box) : Prop where
  kind : box.kind = layer.kind
  name : box.name = if layer.name = "" then none else some layer.name
  id : layer.id ≠ "" → box.id = layer.id

/-- A selection has a design exactly when something of it is shown, and the design is what
is shown: the same trees in the same order, every node carrying over its layer. -/
theorem build_follows_shown (s : Settings) (parent : Option Scene.Node)
    (roots : List Scene.Node) :
    match Design.build s parent roots with
    | .ok forest =>
      forest ≠ [] ∧
        Node.FollowsAll (fun _ layer box => box.Carries layer) none (shownForest roots) forest
    | .error cause => cause = .emptySelection ∧ shownForest roots = [] := by
  have follows : Node.FollowsAll (fun _ layer box => box.Carries layer) none
      (shownForest roots) (ofSelection s parent roots .empty).1 :=
    followsAll_ofSelection s parent roots .empty
      (fun o keeps name => ⟨rfl, rfl, keeps⟩) (fun o keeps above name => ⟨rfl, rfl, keeps⟩)
  cases built : Design.build s parent roots with
  | ok forest =>
      obtain ⟨rfl, present⟩ := build_eq_ok built
      exact ⟨present, follows⟩
  | error cause =>
      obtain ⟨missing, only⟩ := build_eq_error built
      rw [missing] at follows
      have none : (shownForest roots).length = 0 := follows.length_eq.symm
      exact ⟨only, List.length_eq_zero_iff.mp none⟩

end Design

end Handoff
