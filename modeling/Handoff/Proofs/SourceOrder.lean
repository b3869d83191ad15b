import Handoff.Proofs.Dart.Drawing
import Handoff.Proofs.Swift.Drawing
import Handoff.Target

/-!
The order in which targets draw a design.

Markup draws the nodes of a design as they come.  The widget targets do so as well, except that
in a flow they put what is placed at an offset behind all else, on top of which it lies
(`Framework.arrange`).  The texts of the code come in that order (`inOrder_of_build`), which is
not always the order of the design: a text at an offset in front of one in the flow comes after
it in the code of a widget target (`not_source_order`).
-/

namespace Handoff

open Design (Box Node)

namespace Framework

/-- What the code of a forest draws, whether it is written on its own or root by root. -/
def drawings (s : Settings) (forest : List Node) : Framework → List Drawing
  | html => Markup.Element.drawings (Markup.elementsOf (Html.attributes s) false none forest)
  | tailwind =>
    Markup.Element.drawings
      (Markup.elementsOf (Tailwind.attributes s) s.showLayerNames none forest)
  | flutter => (Dart.forestWidget s.showLayerNames forest).drawings
  | swiftUI => (Swift.forestView s.showLayerNames forest).drawings false

/-- How a target draws boxes. -/
def legend (s : Settings) : Framework → Legend
  | html => Markup.legend false
  | tailwind => Markup.legend s.showLayerNames
  | flutter => Dart.legend s.showLayerNames
  | swiftUI => Swift.legend s.showLayerNames

/-- How a target writes a text. -/
def textOf : Framework → Design.TextStyle → String
  | html | tailwind => (·.characters)
  | flutter => Dart.textLiteral
  | swiftUI => Swift.textLiteral

/-- The order in which a target draws the nodes of a forest. -/
def arrange (forest : List Node) : Framework → List Node
  | html | tailwind => forest
  | flutter | swiftUI => Node.arrangedAll forest

/-- The texts of a forest, as a target writes them, in the order of the nodes. -/
def textsOf (f : Framework) (forest : List Node) : List String :=
  (Node.preorderList forest).filterMap fun n => n.box.style.text.map f.textOf

section

variable {s : Settings} {host : Option Scene.Node} {roots : List Scene.Node} {forest : List Node}

theorem drawings_of_build (built : Design.build s host roots = .ok forest) (t : Settings)
    (f : Framework) : f.drawings t forest = Node.drawings (f.legend t) (f.arrange forest) := by
  have formed : ∀ n ∈ Node.preorderList forest, n.WellFormed :=
    fun n member => Design.wellFormed_of_mem_build built member
  cases f with
  | html | tailwind => exact Markup.drawing_elementsOf _ _ forest none formed
  | flutter => exact Dart.drawings_forestWidget _ formed
  | swiftUI =>
      exact Swift.drawings_forestView _ formed fun n member =>
        Design.isAbsolute_of_build built member

theorem texts_of_build (built : Design.build s host roots = .ok forest) (t : Settings)
    (f : Framework) : Drawing.texts (f.drawings t forest) = f.textsOf (f.arrange forest) := by
  rw [drawings_of_build built]
  cases f with
  | html | tailwind | flutter | swiftUI => exact Node.texts_drawings _ _ _

end

end Framework

/-- The order of the code of a forest for a target. -/
structure InOrder (s : Settings) (f : Framework) (forest : List Node) : Prop where
  drawn : f.drawings s forest = Node.drawings (f.legend s) (f.arrange forest)
  /-- Read from left to right, the texts are those of the nodes. -/
  texts : Drawing.texts (f.drawings s forest) = f.textsOf (f.arrange forest)
  /-- Markup is in the order of the design. -/
  markup : f = .html ∨ f = .tailwind → f.arrange forest = forest
  /-- Widgets and views are as well, as long as nothing that flows comes after something at an
  offset. -/
  linedUp : (∀ n ∈ Node.preorderList forest, n.IsLinedUp) → f.arrange forest = forest

/-- Every target draws the children of a node in the order of the design, except that in a flow
the widget targets draw those at an offset after the others, both in the order of the design. -/
theorem inOrder_of_build {s t : Settings} {host : Option Scene.Node} {roots : List Scene.Node}
    {forest : List Node} (built : Design.build s host roots = .ok forest) (f : Framework) :
    InOrder t f forest := by
  refine ⟨Framework.drawings_of_build built t f, Framework.texts_of_build built t f, ?_, ?_⟩
  · rintro (rfl | rfl) <;> rfl
  · intro linedUp
    cases f with
    | html | tailwind => rfl
    | flutter | swiftUI => exact Node.arrangedAll_eq_self forest linedUp

/-- Two texts in a row. -/
theorem inOrder_of_build_row :
    let first : Scene.Node := .mk { nodeType := "TEXT", characters := some "one" } []
    let second : Scene.Node := .mk { nodeType := "TEXT", characters := some "two" } []
    let row : Scene.Node :=
      .mk { nodeType := "FRAME", autoLayout := { mode := .horizontal } } [first, second]
    let s := Settings.defaults
    let forest := (Design.ofSelection s none [row] .empty).1
    Design.build s none [row] = .ok forest ∧ InOrder s s.framework forest := by
  intro first second row s forest
  have built : Design.build s none [row] = .ok forest := rfl
  exact ⟨built, inOrder_of_build built s.framework⟩

/-- A text at an offset in front of a text that flows comes after it in the code of a widget
target. -/
theorem not_source_order :
    let badge : Scene.Node :=
      .mk { nodeType := "TEXT", characters := some "one", positioning := .absolute } []
    let title : Scene.Node := .mk { nodeType := "TEXT", characters := some "two" } []
    let row : Scene.Node :=
      .mk { nodeType := "FRAME", autoLayout := { mode := .horizontal } } [badge, title]
    let s := Settings.defaults
    let forest := (Design.ofSelection s none [row] .empty).1
    Design.build s none [row] = .ok forest ∧
      Framework.flutter.textsOf forest = ["'one'", "'two'"] ∧
      Drawing.texts (Framework.flutter.drawings s forest) = ["'two'", "'one'"] ∧
      Framework.swiftUI.textsOf forest = ["\"one\"", "\"two\""] ∧
      Drawing.texts (Framework.swiftUI.drawings s forest) = ["\"two\"", "\"one\""] ∧
      ¬ ∀ f : Framework, Drawing.texts (f.drawings s forest) = f.textsOf forest := by
  intro badge title row s forest
  have built : Design.build s none [row] = .ok forest := rfl
  -- Literals are computed apart from the trees, so that what remains is a comparison of lists.
  have dart : Dart.literal "one" = "'one'" ∧ Dart.literal "two" = "'two'" := by decide +kernel
  have swift : Swift.literal "one" = "\"one\"" ∧ Swift.literal "two" = "\"two\"" := by
    decide +kernel
  have source : Framework.flutter.textsOf forest = ["'one'", "'two'"] := by
    rw [← dart.1, ← dart.2]
    rfl
  have code : Drawing.texts (Framework.flutter.drawings s forest) = ["'two'", "'one'"] := by
    rw [Framework.texts_of_build built, ← dart.1, ← dart.2]
    rfl
  refine ⟨built, source, code, ?_, ?_, fun ordered => ?_⟩
  · rw [← swift.1, ← swift.2]
    rfl
  · rw [Framework.texts_of_build built, ← swift.1, ← swift.2]
    rfl
  · have same := (ordered .flutter).symm.trans code
    rw [source] at same
    exact absurd same (by decide)

end Handoff
