import Handoff.Proofs.Design.Arrangement
import Handoff.Proofs.Design.Names
import Handoff.Proofs.Design.TextGroups
import Handoff.Proofs.Text.Case
import Handoff.Proofs.Text.Wording

/-!
The texts and the words of a design.

A node has a text exactly if it was made of a text layer, and the text is that of the layer
(`Outline.text_box`).  So what holds of the texts of a design is what holds of the text layers
shown (`Design.forall_text_of_build`).

Of what a designer has written the code of a design has the characters of its texts as they are
shown, the families of their fonts, and in comments the names of the layers if they are asked for.
`wordingOf` lists them node by node.  The definitions of text styles have the families
(`familiesOf`).
-/

namespace Handoff

/-- The text of a layer. -/
def Scene.Layer.textStyle (l : Scene.Layer) : Design.TextStyle :=
  ⟨l.characters.getD "", l.typography⟩

theorem Outline.text_box (s : Settings) (around : Surroundings) (name : String) (o : Outline) :
    (o.box s around name).style.text =
      if o.layer.kind = .text then some o.layer.textStyle else none := by
  show (o.style s).text = _
  unfold Outline.style Scene.Layer.kind
  cases o.layer.kind? with
  | none => rfl
  | some kind => rfl

namespace Design

variable {s : Settings} {host : Option Scene.Node} {roots : List Scene.Node} {forest : List Node}

theorem texts_of_build (built : build s host roots = .ok forest) :
    (Node.preorderList forest).map (·.box.style.text) =
      (Scene.Node.layersAll (Scene.shownForest roots)).map fun layer =>
        if layer.kind = .text then some layer.textStyle else none := by
  obtain ⟨rfl, -⟩ := build_eq_ok built
  have listed := map_preorderList_ofSelection (g := fun b => b.style.text)
    (fun o around name => Outline.text_box s around name o) (fun _ => rfl) host roots .empty
  rw [listed, ← Outline.scenes_ofRoots, Outline.layersAll_scenes, List.map_map]
  rfl

/-- What holds of the texts of a design holds of those of the text layers shown. -/
theorem forall_text_of_build (built : build s host roots = .ok forest) (P : TextStyle → Prop) :
    (∀ n ∈ Node.preorderList forest, ∀ t, n.box.style.text = some t → P t) ↔
      ∀ layer ∈ Scene.Node.layersAll (Scene.shownForest roots),
        layer.kind = .text → P layer.textStyle := by
  calc (∀ n ∈ Node.preorderList forest, ∀ t, n.box.style.text = some t → P t)
    _ ↔ ∀ text ∈ (Node.preorderList forest).map (·.box.style.text), ∀ t, text = some t → P t := by
        simp only [List.forall_mem_map]
    _ ↔ ∀ layer ∈ Scene.Node.layersAll (Scene.shownForest roots),
          layer.kind = .text → P layer.textStyle := by
        rw [texts_of_build built, List.forall_mem_map]
        refine forall₂_congr fun layer _ => ?_
        by_cases text : layer.kind = .text
        · simp only [text, if_true, Option.some.injEq, forall_eq', true_imp_iff]
        · simp only [text, if_false, reduceCtorEq, false_imp_iff, implies_true]

end Design

end Handoff

/-! ## Words -/

namespace Handoff

open Text (Word Unbroken)

namespace Design

/-- The comment that names a layer: the name on one line. -/
def nameWord (name : String) : Word := .comment (" " ++ Text.substitute '\n' [' '] name)

/-- The words of a text: its characters, as they are shown, and the family of its font. -/
def TextStyle.wording (t : TextStyle) : List Word :=
  [.literal (t.typography.textCase.apply t.characters), .literal t.typography.family]

/-- The words of a node. -/
def Box.wording (names : Bool) (b : Box) : List Word :=
  (if names then b.name.toList.map nameWord else []) ++ b.style.text.toList.flatMap (·.wording)

/-- The words of a design. -/
def wordingOf (names : Bool) (forest : List Node) : List Word :=
  (Node.preorderList forest).flatMap (·.box.wording names)

/-- The words of text styles: the families of their fonts. -/
def familiesOf (groups : List TextGroup) : List Word :=
  groups.map fun g => .literal g.typography.family

/-- The words of a node and of those below it as they are lined up. -/
def Node.wording (names : Bool) (n : Node) : List Word :=
  n.arranged.preorder.flatMap (·.box.wording names)

theorem wordingOf_arrangedAll (names : Bool) (nodes : List Node) :
    wordingOf names (Node.arrangedAll nodes) = nodes.flatMap (Node.wording names) := by
  rw [wordingOf, Node.preorderList_eq_flatMap, Node.arrangedAll_eq_map, List.flatMap_map,
    List.flatMap_assoc]
  rfl

theorem Node.wording_eq (names : Bool) (n : Node) :
    n.wording names =
      n.box.wording names ++ (n.box.lineUp n.children).flatMap (Node.wording names) := by
  have below := wordingOf_arrangedAll names (n.box.lineUp n.children)
  rw [Node.arrangedAll_eq_map, ← Node.children_arranged] at below
  rw [Node.wording, Node.preorder_eq_cons, List.flatMap_cons, Node.box_arranged, ← below]
  rfl

theorem wordingOf_arranged_perm (names : Bool) (forest : List Node) :
    (wordingOf names (Node.arrangedAll forest)).Perm (wordingOf names forest) := by
  have perm := (Node.preorderList_arrangedAll_perm forest).flatMap_right (·.box.wording names)
  rw [List.flatMap_map] at perm
  simp only [Node.box_arranged] at perm
  exact perm

theorem oneLine_substitute_blank (name : String) :
    Text.OneLine (Text.substitute '\n' [' '] name) := by
  rw [Text.substitute, Text.oneLine_ofList]
  intro member
  obtain ⟨c, -, feed⟩ := List.mem_flatMap.mp member
  split at feed
  · exact absurd feed (by decide)
  · rename_i other
    exact other (List.mem_singleton.mp feed).symm

theorem return_mem_substitute (name : String) :
    '\r' ∈ (Text.substitute '\n' [' '] name).toList ↔ '\r' ∈ name.toList := by
  rw [Text.substitute, String.toList_ofList, List.mem_flatMap]
  constructor
  · rintro ⟨c, member, own⟩
    split at own
    · exact absurd own (by decide)
    · exact List.mem_singleton.mp own ▸ member
  · exact fun member => ⟨'\r', member, by decide⟩

theorem return_mem_nameWord (name : String) :
    '\r' ∈ (nameWord name).text.toList ↔ '\r' ∈ name.toList := by
  have blank : '\r' ∉ " ".toList := by decide
  rw [nameWord, Word.text, String.toList_append, List.mem_append, return_mem_substitute]
  exact or_iff_right blank

theorem return_mem_apply (letterCase : TextCase) (text : String) :
    '\r' ∈ (letterCase.apply text).toList ↔ '\r' ∈ text.toList :=
  Text.mem_apply_iff (by decide) letterCase text

/-! ## Words of a selection -/

end Design

namespace Scene

/-- The words of a layer that is shown. -/
def Layer.wording (names : Bool) (l : Layer) : List Word :=
  (if names = true ∧ l.name ≠ "" then [Design.nameWord l.name] else []) ++
    if l.kind = .text then l.textStyle.wording else []

/-- There is no carriage return in the strings of a layer that become words. -/
def Layer.Unbroken (names : Bool) (l : Layer) : Prop :=
  (names = true → '\r' ∉ l.name.toList) ∧
    (l.kind = .text → '\r' ∉ l.textStyle.characters.toList ∧ '\r' ∉ l.fontFamily.toList)

instance (names : Bool) (l : Layer) : Decidable (l.Unbroken names) :=
  inferInstanceAs (Decidable (_ ∧ _))

theorem Layer.unbroken_wording_iff (names : Bool) (l : Layer) :
    Text.Unbroken (l.wording names) ↔ l.Unbroken names := by
  unfold Layer.wording Layer.Unbroken
  rw [Text.unbroken_append]
  refine and_congr ?_ ?_
  · by_cases empty : l.name = ""
    · simp [empty, Text.Unbroken]
    · cases names <;> simp [empty, Text.Unbroken, Design.return_mem_nameWord]
  · by_cases text : l.kind = .text
    · simp [text, Text.Unbroken, Design.TextStyle.wording, Word.text, Design.return_mem_apply,
        Layer.textStyle, Layer.typography]
    · simp [text, Text.Unbroken]

end Scene

theorem Outline.wording_box (s : Settings) (around : Surroundings) (name : String) (o : Outline)
    (names : Bool) : (o.box s around name).wording names = o.layer.wording names := by
  rw [Design.Box.wording, Outline.text_box, Scene.Layer.wording]
  refine congr (congrArg _ ?_) ?_
  · show (if names then (if o.layer.name = "" then none else some o.layer.name).toList.map
      Design.nameWord else []) = _
    by_cases empty : o.layer.name = "" <;> cases names <;> simp [empty]
  · split <;> simp

namespace Design

variable {s : Settings} {host : Option Scene.Node} {roots : List Scene.Node} {forest : List Node}

/-- The words of a design are those of the layers shown. -/
theorem wordingOf_of_build (built : build s host roots = .ok forest) (names : Bool) :
    wordingOf names forest =
      (Scene.Node.layersAll (Scene.shownForest roots)).flatMap (·.wording names) := by
  obtain ⟨rfl, -⟩ := build_eq_ok built
  have listed := map_preorderList_ofSelection (g := fun b => b.wording names)
    (fun o around name => Outline.wording_box s around name o names) (fun _ => rfl) host roots
    .empty
  rw [wordingOf, List.flatMap_def, listed, ← Outline.scenes_ofRoots, Outline.layersAll_scenes,
    List.flatMap_map, List.flatMap_def]

theorem unbroken_wordingOf_iff (built : build s host roots = .ok forest) (names : Bool) :
    Unbroken (wordingOf names forest) ↔
      ∀ layer ∈ Scene.Node.layersAll (Scene.shownForest roots), layer.Unbroken names := by
  rw [wordingOf_of_build built, Unbroken, List.forall_mem_flatMap]
  exact forall₂_congr fun layer _ => layer.unbroken_wording_iff names

theorem unbroken_familiesOf_iff (built : build s host roots = .ok forest) :
    Unbroken (familiesOf (TextGroup.ofForest forest)) ↔
      ∀ layer ∈ Scene.Node.layersAll (Scene.shownForest roots),
        layer.kind = .text → '\r' ∉ layer.fontFamily.toList := by
  rw [familiesOf, Unbroken, List.forall_mem_map]
  exact (TextGroup.forall_family_ofForest (P := fun family => '\r' ∉ family.toList) forest).trans
    (forall_text_of_build built fun t => '\r' ∉ t.typography.family.toList)

end Design

end Handoff
