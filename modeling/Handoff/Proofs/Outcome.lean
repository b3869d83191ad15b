import Handoff.Proofs.Design.Correspondence
import Handoff.Proofs.Template.Scaffold

/-!
When a conversion fails.

Whatever types, paints, effects and texts there are in a selection, every visible node of it has
an outline (`Outline.isSome_ofNode_eq`), and so every visible root a tree in the design
(`Design.length_ofSelection`).  The scaffolds around the code are rendered for every design
(`Scaffolds`).  What is left is the one way for a conversion to fail: that nothing of the
selection is visible (`convert_outcome`).
-/

namespace Handoff

namespace Outline

/-- A node has an outline if and only if it is visible, whatever is below it. -/
theorem isSome_ofNode_eq (fallback : String) (dx dy : Float) (n : Scene.Node) :
    (ofNode fallback dx dy n).isSome = n.layer.visible := by
  cases visible : n.layer.visible with
  | false =>
      rw [ofNode_hidden visible]
      rfl
  | true => exact isSome_ofNode fallback dx dy n visible

theorem length_ofChildren {parent : String} : ∀ (nodes : List Scene.Node) (index : Nat),
    (ofChildren parent index nodes).length = (nodes.filter (·.layer.visible)).length
  | [], index => by
      rw [ofChildren]
      rfl
  | n :: rest, index => by
      have single : ∀ o : Option Outline, o.toList.length = if o.isSome then 1 else 0 := by
        rintro (_ | o) <;> rfl
      rw [ofChildren, List.length_append, length_ofChildren rest, single, isSome_ofNode_eq,
        List.filter_cons]
      split
      · exact Nat.add_comm _ _
      · exact Nat.zero_add _

end Outline

namespace Design

theorem length_listToDesign (s : Settings) (around : Surroundings) :
    ∀ (outlines : List Outline) (names : Registry),
      (Outline.listToDesign s around names outlines).1.length = outlines.length
  | [], names => by
      rw [Outline.listToDesign]
      rfl
  | o :: rest, names => by
      rw [Outline.listToDesign_cons]
      exact congrArg (· + 1) (length_listToDesign s around rest _)

/-- A design has a tree for each visible root of the selection. -/
theorem length_ofSelection (s : Settings) (parent : Option Scene.Node) (roots : List Scene.Node)
    (names : Registry) :
    (ofSelection s parent roots names).1.length = (roots.filter (·.layer.visible)).length := by
  rw [← Outline.length_ofChildren roots 0, ← length_listToDesign s (.ofParent s parent) _ names]
  exact List.length_map _

/-- A selection either has nothing visible in it and no design, or a visible root and a design
that is not empty. -/
theorem build_cases (s : Settings) (parent : Option Scene.Node) (roots : List Scene.Node) :
    ((∀ n ∈ roots, n.layer.visible = false) ∧
        Design.build s parent roots = .error .emptySelection) ∨
      ((∃ n ∈ roots, n.layer.visible = true) ∧
        Design.build s parent roots = .ok (ofSelection s parent roots .empty).1) := by
  have count := length_ofSelection s parent roots .empty
  cases built : Design.build s parent roots with
  | error cause =>
      obtain ⟨missing, rfl⟩ := build_eq_error built
      -- No tree in the design, so no root that passes the filter.
      refine .inl ⟨fun n member => ?_, rfl⟩
      rw [missing] at count
      have none := List.filter_eq_nil_iff.mp (List.length_eq_zero_iff.mp count.symm) n member
      exact Bool.eq_false_iff.mpr none
  | ok forest =>
      obtain ⟨rfl, present⟩ := build_eq_ok built
      refine .inr ⟨?_, rfl⟩
      have shown : roots.filter (·.layer.visible) ≠ [] := by
        intro none
        rw [none] at count
        exact present (List.length_eq_zero_iff.mp count)
      obtain ⟨n, member⟩ := List.exists_mem_of_ne_nil _ shown
      exact ⟨n, List.mem_filter.mp member⟩

end Design

/-- The templates around generated code are rendered for a design, to the texts that are
shown. -/
structure Scaffolds (s : Settings) (forest : List Design.Node) : Prop where
  preview : Template.render? Html.pageTemplate
      (Html.pageData (Html.code (Html.previewSettings s) forest)) =
    some (Html.preview s forest).content
  flutter : Template.render? Dart.appTemplate (Dart.appData s forest) = some (Dart.app s forest)
  swiftUI : Template.render? Swift.appTemplate (Swift.appData s forest) =
    some (Swift.app s forest)
  textStyles : (Template.render? Tailwind.textStylesTemplate
      (Tailwind.textStylesData s (Design.TextGroup.ofForest forest))).map Text.trim =
    some (Tailwind.textStyles s (Design.TextGroup.ofForest forest))

theorem scaffolds (s : Settings) (forest : List Design.Node) : Scaffolds s forest where
  preview := Html.render_page _
  flutter := Dart.render_app s forest
  swiftUI := Swift.render_app s forest
  textStyles := Tailwind.render_textStyles s _

/-- The code is the first artifact of every target. -/
theorem Framework.exists_artifacts (s : Settings) (forest : List Design.Node) (f : Framework) :
    ∃ code rest, f.artifacts s forest = code :: rest ∧ code.title = "Code" := by
  cases f <;> exact ⟨_, _, rfl, rfl⟩

section

variable (s : Settings) (parent : Option Scene.Node) (roots : List Scene.Node)

theorem convert_cases :
    ((∀ n ∈ roots, n.layer.visible = false) ∧
        convert s parent roots = .error .emptySelection) ∨
      ((∃ n ∈ roots, n.layer.visible = true) ∧
        ∃ c code rest, convert s parent roots = .ok c ∧
          c.artifacts = code :: rest ∧ code.title = "Code") := by
  rcases Design.build_cases s parent roots with ⟨hidden, refused⟩ | ⟨visible, built⟩
  · refine .inl ⟨hidden, ?_⟩
    unfold convert
    rw [refused]
    rfl
  · have converted : ∃ c, convert s parent roots = .ok c ∧
        c.artifacts = artifactsOf s (Design.ofSelection s parent roots .empty).1 := by
      unfold convert
      rw [built]
      exact ⟨_, rfl, rfl⟩
    obtain ⟨c, done, artifacts⟩ := converted
    obtain ⟨code, rest, made, title⟩ :=
      s.framework.exists_artifacts s (Design.ofSelection s parent roots .empty).1
    rw [artifactsOf, made, List.cons_append, List.cons_append] at artifacts
    exact .inr ⟨visible, c, code, _, done, artifacts, title⟩

theorem convert_eq_error_iff (cause : ConversionError) :
    convert s parent roots = .error cause ↔
      cause = .emptySelection ∧ ∀ n ∈ roots, n.layer.visible = false := by
  rcases convert_cases s parent roots with
    ⟨hidden, failed⟩ | ⟨⟨n, member, visible⟩, c, code, rest, done, -⟩
  · rw [failed]
    constructor
    · rintro ⟨⟩
      exact ⟨rfl, hidden⟩
    · rintro ⟨rfl, -⟩
      rfl
  · rw [done]
    constructor
    · rintro ⟨⟩
    · rintro ⟨-, hidden⟩
      rw [hidden n member] at visible
      cases visible

theorem exists_code_iff :
    (∃ c code rest, convert s parent roots = .ok c ∧
        c.artifacts = code :: rest ∧ code.title = "Code") ↔
      ∃ n ∈ roots, n.layer.visible = true := by
  rcases convert_cases s parent roots with
    ⟨hidden, failed⟩ | ⟨visible, shown⟩
  · constructor
    · rintro ⟨c, -, -, done, -⟩
      rw [failed] at done
      cases done
    · rintro ⟨n, member, visible⟩
      rw [hidden n member] at visible
      cases visible
  · exact ⟨fun _ => visible, fun _ => shown⟩

/-- An error is shown if and only if there is one. -/
theorem Message.ofSelection_eq_error_iff (cause : ConversionError) :
    Message.ofSelection s parent roots = .error cause ↔
      convert s parent roots = .error cause := by
  unfold Message.ofSelection
  cases convert s parent roots with
  | error other => rw [Message.error.injEq, Except.error.injEq]
  | ok c =>
      constructor
      · rintro ⟨⟩
      · rintro ⟨⟩

/-- A conversion fails if and only if no root of the selection is visible, and it is an error
that is shown then.  Otherwise there is code, and it comes first.  Nothing that is below a
visible node and nothing in a scaffold stands in the way. -/
theorem convert_outcome :
    (∀ cause, convert s parent roots = .error cause ↔
        cause = .emptySelection ∧ ∀ n ∈ roots, n.layer.visible = false) ∧
      (∀ cause, Message.ofSelection s parent roots = .error cause ↔
        cause = .emptySelection ∧ ∀ n ∈ roots, n.layer.visible = false) ∧
      ((∃ c code rest, convert s parent roots = .ok c ∧
          c.artifacts = code :: rest ∧ code.title = "Code") ↔
        ∃ n ∈ roots, n.layer.visible = true) ∧
      (∀ names, (Design.ofSelection s parent roots names).1.length =
        (roots.filter (·.layer.visible)).length) ∧
      (∀ fallback dx dy (n : Scene.Node),
        (Outline.ofNode fallback dx dy n).isSome = n.layer.visible) ∧
      ∀ forest, Scaffolds s forest := by
  have failed := convert_eq_error_iff s parent roots
  have shown := fun cause =>
    (Message.ofSelection_eq_error_iff s parent roots cause).trans (failed cause)
  exact ⟨failed, shown, exists_code_iff s parent roots, Design.length_ofSelection s parent roots,
    Outline.isSome_ofNode_eq, scaffolds s⟩

end

end Handoff
