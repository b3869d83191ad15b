import Handoff.Proofs.Design.Preorder
import Handoff.Proofs.Naming

/-!
The names of designs that are made one after another.

A design takes its names in preorder, so its tree can be forgotten: what
`Outline.listToDesign` hands out is what `Registry.registerAll` hands out for the layers in
preorder (`Outline.names_listToDesign`), and leaves the same names taken.  With the layers
read off the scene (`Design.requests`), several selections in turn are one list of
requests.

The main statement is `Design.names_ofSelections`.
-/

namespace Handoff

/-! ## Layers in preorder -/

namespace Scene

mutual

/-- The layer of a node, then those of the nodes below it. -/
def Node.layers : Node → List Layer
  | .mk layer children => layer :: Node.layersAll children

/-- The layers of nodes in turn, each before those below it. -/
def Node.layersAll : List Node → List Layer
  | [] => []
  | n :: rest => n.layers ++ Node.layersAll rest

end

/-- What a layer asks a registry for: its name, and a word for its kind. -/
def Layer.request (l : Layer) : String × String :=
  (l.name, l.kind.fallbackName)

end Scene

theorem Design.Kind.isIdentifier_fallbackName (kind : Design.Kind) :
    Naming.isIdentifier kind.fallbackName = true := by
  rcases kind with _ | _ | (_ | _ | _ | _) | _ | _ | _ <;> decide

namespace Outline

open Design (Node)

mutual

theorem layers_scene : ∀ o : Outline, o.scene.layers = o.preorder.map layer
  | mk layer id dx dy children => by
      rw [scene, Scene.Node.layers, preorder, List.map_cons, layersAll_scenes children]
      rfl

theorem layersAll_scenes : ∀ outlines : List Outline,
    Scene.Node.layersAll (scenes outlines) = (preorderList outlines).map layer
  | [] => by
      rw [scenes, Scene.Node.layersAll, preorderList]
      rfl
  | o :: rest => by
      rw [scenes, Scene.Node.layersAll, preorderList, List.map_append, layers_scene o,
        layersAll_scenes rest]

end

/-! ## Names in preorder -/

section

variable {s : Settings}

mutual

/-- A design takes the names of its layers in preorder. -/
theorem names_toDesign : ∀ (o : Outline) (around : Surroundings) (names : Registry),
    ((o.toDesign s around names).1.preorder.map (·.box.uniqueName),
        (o.toDesign s around names).2) =
      names.registerAll (o.preorder.map (·.layer.request))
  | mk layer id dx dy children, around, names => by
      rw [toDesign_mk, preorder, List.map_cons]
      dsimp only
      have below := names_listToDesign children
        (.inside ((mk layer id dx dy children).box s around
          (names.register layer.name layer.kind.fallbackName).1).layout.mode)
        (names.register layer.name layer.kind.fallbackName).2
      rw [Node.preorder, List.map_cons, Outline.layer, Scene.Layer.request, Registry.registerAll,
        ← below]
      rfl

/-- Designs in turn take the names of their layers in preorder. -/
theorem names_listToDesign : ∀ (outlines : List Outline) (around : Surroundings)
    (names : Registry),
    ((Node.preorderList (listToDesign s around names outlines).1).map (·.box.uniqueName),
        (listToDesign s around names outlines).2) =
      names.registerAll ((preorderList outlines).map (·.layer.request))
  | [], around, names => by
      rw [listToDesign, preorderList]
      rfl
  | o :: rest, around, names => by
      have first := names_toDesign o around names
      have others := names_listToDesign rest around (o.toDesign s around names).2
      rw [listToDesign_cons, preorderList, List.map_append, Registry.registerAll_append,
        ← first]
      dsimp only
      rw [← others, Node.preorderList, List.map_append]

end

end

end Outline

/-! ## Selections in turn -/

namespace Design

/-- What the layers shown of a selection ask for, in preorder. -/
def requests (roots : List Scene.Node) : List (String × String) :=
  (Scene.Node.layersAll (Scene.shownForest roots)).map Scene.Layer.request

theorem requests_eq (roots : List Scene.Node) :
    requests roots = (Outline.preorderList (Outline.ofRoots roots)).map (·.layer.request) := by
  rw [requests, ← Outline.scenes_ofRoots, Outline.layersAll_scenes, List.map_map]
  rfl

/-- A design takes the names that the layers shown of the selection ask for. -/
theorem names_ofSelection (s : Settings) (parent : Option Scene.Node) (roots : List Scene.Node)
    (names : Registry) :
    ((Node.preorderList (ofSelection s parent roots names).1).map (·.box.uniqueName),
        (ofSelection s parent roots names).2) =
      names.registerAll (requests roots) := by
  have listed :=
    @Outline.names_listToDesign s (Outline.ofRoots roots) (.ofParent s parent) names
  rw [requests_eq, ← listed]
  exact Prod.ext (map_preorderList_asRoot (fun _ => rfl) _) rfl

/-- The designs of selections in turn, each under its parent, and the names taken after
them. -/
def ofSelections (s : Settings) (names : Registry) :
    List (Option Scene.Node × List Scene.Node) → List (List Node) × Registry
  | [] => ([], names)
  | (parent, roots) :: rest =>
    let first := ofSelection s parent roots names
    let others := ofSelections s first.2 rest
    (first.1 :: others.1, others.2)

/-- All nodes of designs in turn, each design in preorder. -/
def allNodes (designs : List (List Node)) : List Node :=
  designs.flatMap Node.preorderList

/-- Designs in turn take names as if all requests had been made one after another. -/
theorem registerAll_ofSelections (s : Settings)
    (selections : List (Option Scene.Node × List Scene.Node)) (names : Registry) :
    ((allNodes (ofSelections s names selections).1).map (·.box.uniqueName),
        (ofSelections s names selections).2) =
      names.registerAll (selections.flatMap fun selection => requests selection.2) := by
  induction selections generalizing names with
  | nil => rfl
  | cons selection rest ih =>
      obtain ⟨parent, roots⟩ := selection
      rw [List.flatMap_cons, Registry.registerAll_append,
        ← names_ofSelection s parent roots names]
      dsimp only
      rw [← ih, ofSelections, allNodes, List.flatMap_cons, List.map_append]
      rfl

theorem usable_requests (roots : List Scene.Node) :
    ∀ request ∈ requests roots, Naming.isIdentifier request.2 = true := by
  intro request member
  obtain ⟨layer, -, rfl⟩ := List.mem_map.mp member
  exact layer.kind.isIdentifier_fallbackName

/-- However many selections are made into designs with the same registry, their nodes have
pairwise distinct names, all of them identifiers: the names that the layers shown get when
they ask for them in preorder, design by design.  Each request is granted the base made
from the layer name, or the base with the least free number. -/
theorem names_ofSelections (s : Settings)
    (selections : List (Option Scene.Node × List Scene.Node)) :
    let names := (allNodes (ofSelections s .empty selections).1).map (·.box.uniqueName)
    names.Nodup ∧ names.all Naming.isIdentifier = true ∧
      names =
        (Registry.empty.registerAll
          (selections.flatMap fun selection => requests selection.2)).1 ∧
      ∀ (r : Registry) (raw fallback : String),
        r.Grants (Naming.identifier raw fallback) (r.register raw fallback).1 ∧
          (r.register raw fallback).2.taken = (r.register raw fallback).1 :: r.taken := by
  intro names
  have handed : names =
      (Registry.empty.registerAll (selections.flatMap fun selection => requests selection.2)).1 :=
    congrArg Prod.fst (registerAll_ofSelections s selections .empty)
  refine ⟨?_, ?_, handed, fun r raw fallback => ⟨r.grants_pick _, rfl⟩⟩
  · rw [handed]
    exact (Registry.nodup_registerAll _ _).1
  · rw [handed, List.all_eq_true]
    refine Registry.isIdentifier_registerAll _ fun request member => ?_
    obtain ⟨selection, -, asked⟩ := List.mem_flatMap.mp member
    exact usable_requests selection.2 request asked

end Design

end Handoff
