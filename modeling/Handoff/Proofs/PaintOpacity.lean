import Handoff.Conversion
import Handoff.Proofs.Opacity.Dart
import Handoff.Proofs.Opacity.Swift
import Handoff.Proofs.Opacity.Tailwind

/-!
Half the opacity of a fill.

A frame, a group or an instance somewhere in a selection has a single fill, which is visible and
drawn in opaque colors, and the fill gets half its opacity.  Every target writes colors with their
alpha channel, so what it makes of the design is another, wherever the node is and whatever is
around it.  The opacity of an image is in none of its colors, and no target looks at the one that
stays with the paint: for an image nothing changes.  Nor is there a warning in either case.

The main statement is `Framework.artifacts_halved`.
-/

namespace Handoff

open Design (Node)
open Scene (Paint)

variable {P Q : Design.Paint} {forest forest' : List Node}

namespace Framework

/-- What a target makes of a design changes when an opaque fill fades, unless it is an image. -/
theorem artifacts_fades (fades : P.Fades Q) (s : Settings)
    (changed : InOnePlace (Node.Exchanged P Q) forest forest') (f : Framework) :
    f.artifacts s forest = f.artifacts s forest' ↔ P.fill.isImage = true := by
  cases f with
  | html => exact Html.artifacts_fades fades s changed
  | tailwind => exact Tailwind.artifacts_fades fades s changed
  | flutter => exact Dart.artifacts_fades fades s changed
  | swiftUI => exact Swift.artifacts_fades fades s changed

theorem warnings_exchanged (changed : InOnePlace (Node.Exchanged P Q) forest forest')
    (f : Framework) : f.warnings forest = f.warnings forest' := by
  cases f with
  | html => exact Html.warnings_exchanged changed
  | tailwind => exact Tailwind.warnings_exchanged changed
  | flutter => exact Dart.listWarnings_exchanged changed
  | swiftUI => exact Swift.listWarnings_exchanged changed

end Framework

/-! ## What an image leaves as it is -/

namespace Design

theorem preorderList_append (before after : List Node) :
    Node.preorderList (before ++ after) = Node.preorderList before ++ Node.preorderList after := by
  induction before with
  | nil => rfl
  | cons n rest ih =>
      rw [List.cons_append, Node.preorderList, Node.preorderList, ih, List.append_assoc]

/-- What does not tell two fills apart reads the same off all nodes after they are exchanged. -/
theorem map_preorder_exchanged {β : Type} {g : Box → β}
    (blind : ∀ b : Box, g (b.withFill P) = g (b.withFill Q)) {n m : Node}
    (changed : n.Exchanged P Q m) :
    n.preorder.map (fun n => g n.box) = m.preorder.map fun n => g n.box := by
  have own (b : Box) (children : List Node) : (Node.mk b children).preorder.map (fun n => g n.box) =
      g b :: (Node.preorderList children).map fun n => g n.box := rfl
  induction changed with
  | own container => rw [own, own, blind]
  | inside container changed ih =>
      rw [own, own]
      simp only [preorderList_append, Node.preorderList, List.map_append, ih]

theorem map_preorderList_exchanged {β : Type} {g : Box → β}
    (blind : ∀ b : Box, g (b.withFill P) = g (b.withFill Q))
    (changed : InOnePlace (Node.Exchanged P Q) forest forest') :
    (Node.preorderList forest).map (fun n => g n.box) =
      (Node.preorderList forest').map fun n => g n.box := by
  obtain ⟨before, n, m, after, rfl, rfl, changed⟩ := changed
  simp only [preorderList_append, Node.preorderList, List.map_append,
    map_preorder_exchanged blind changed]

/-- Text styles have nothing to do with the fills of what is no text. -/
theorem textGroups_exchanged (changed : InOnePlace (Node.Exchanged P Q) forest forest') :
    TextGroup.ofForest forest = TextGroup.ofForest forest' := by
  -- Nothing is lost for text styles where every box has the same fill.
  have each (forest : List Node) : (Node.preorderList forest).foldl TextGroup.insertNode [] =
      ((Node.preorderList forest).map fun n => n.box.withFill P).foldl
        (fun groups b => TextGroup.insertNode groups (.mk b [])) [] := by
    rw [List.foldl_map]
    rfl
  have blind (b : Box) : (b.withFill P).withFill P = (b.withFill Q).withFill P := rfl
  have same := map_preorderList_exchanged (g := fun b => b.withFill P) blind changed
  rw [TextGroup.ofForest, TextGroup.ofForest, each, each, same]

/-- Fills that are made of the same use the same colors. -/
theorem usedColors_exchanged (fill : P.fill = Q.fill)
    (changed : InOnePlace (Node.Exchanged P Q) forest forest') :
    UsedColors.ofForest forest = UsedColors.ofForest forest' := by
  have solid : P.solid? = Q.solid? := by rw [Paint.solid?, Paint.solid?, fill]
  have gradient : P.gradient? = Q.gradient? := by rw [Paint.gradient?, Paint.gradient?, fill]
  have colors := map_preorderList_exchanged (g := fun b => b.style.colors) (fun b => by
    simp only [Style.colors, Style.paints, Box.withFill, List.filterMap_cons, solid,
      List.singleton_append]) changed
  have gradients := map_preorderList_exchanged (g := fun b => b.style.gradients) (fun b => by
    simp only [Style.gradients, Style.paints, Box.withFill, List.filterMap_cons, gradient,
      List.singleton_append]) changed
  unfold UsedColors.ofForest
  simp only [List.flatMap_def, colors, gradients]

end Design

/-- The preview of a fill is that of what it is made of. -/
theorem Html.preview_exchanged (fill : P.fill = Q.fill) (mode : Q.blendMode = P.blendMode)
    (s : Settings) (changed : InOnePlace (Node.Exchanged P Q) forest forest') :
    preview s forest = preview s forest' := by
  have layers (n : Node) : Css.layer n true P = Css.layer n true Q := by
    rw [Css.layer, Css.layer, fill]
  have differs : Differs True 0 P Q := ⟨mode, fun n => layers n ▸ .refl _ _ _⟩
  have code : code (previewSettings s) forest = code (previewSettings s) forest' :=
    (shifts_code (s := previewSettings s) differs changed).eq trivial
  have geometry : forest.map (·.box.geometry) = forest'.map (·.box.geometry) := by
    obtain ⟨before, n, m, after, rfl, rfl, changed⟩ := changed
    obtain ⟨fills, box⟩ := changed.box
    simp only [List.map_append, List.map_cons, box]
  have sizes (size : Design.Geometry → Float) :
      forest.map (fun n => size n.box.geometry) = forest'.map fun n => size n.box.geometry := by
    have map := congrArg (List.map size) geometry
    rw [List.map_map, List.map_map] at map
    exact map
  rw [preview, preview, code, sizes (·.width), sizes (·.height)]

/-! ## Conversions -/

theorem InOnePlace.ne_nil {α : Type} {R : α → α → Prop} {items changed : List α}
    (one : InOnePlace R items changed) : items ≠ [] ∧ changed ≠ [] := by
  obtain ⟨before, a, b, after, rfl, rfl, -⟩ := one
  simp

theorem Design.build_of_ne_nil {s : Settings} {parent : Option Scene.Node}
    {roots : List Scene.Node} (some : (ofSelection s parent roots .empty).1 ≠ []) :
    build s parent roots = .ok (ofSelection s parent roots .empty).1 := by
  unfold build
  split
  · rename_i none
    exact absurd none some
  · rfl

/-- The conversion of a forest. -/
def conversionOf (s : Settings) (left : List Warning) (forest : List Node) : Conversion where
  framework := s.framework
  artifacts := artifactsOf s forest
  warnings := Warning.distinct (left ++ s.framework.warnings forest)
  preview := Html.preview s forest
  colors := (Design.UsedColors.ofForest forest).solidColors s.framework
  gradients := (Design.UsedColors.ofForest forest).linearGradients s.framework

theorem convert_of_build {s : Settings} {parent : Option Scene.Node} {roots : List Scene.Node}
    (built : Design.build s parent roots = .ok forest) :
    convert s parent roots = .ok (conversionOf s (Design.warningsOf s roots) forest) := by
  unfold convert
  rw [built]
  rfl

/-- Where nothing but the opacity of an image is another, the conversion is the same. -/
theorem conversionOf_exchanged (fades : P.Fades Q) (image : P.fill.isImage = true) (s : Settings)
    (left : List Warning) (changed : InOnePlace (Node.Exchanged P Q) forest forest') :
    conversionOf s left forest = conversionOf s left forest' := by
  have fill := fades.fill.eq_of_isImage image
  have own := (s.framework.artifacts_fades fades s changed).mpr image
  have groups := Design.textGroups_exchanged changed
  have used := Design.usedColors_exchanged fill changed
  have preview := Html.preview_exchanged fill fades.blendMode s changed
  have warned := s.framework.warnings_exchanged changed
  unfold conversionOf artifactsOf
  rw [own, groups, used, preview, warned]

/-- Two selections are the same but for the opacity of one fill, which is all in one and half in the
other.  Both are converted, with the same warnings.  If the fill is an image, the conversions are
the same, and otherwise the artifacts of the target are not. -/
theorem Framework.artifacts_halved {s : Settings} {p : Paint} {roots roots' : List Scene.Node}
    (visible : p.visible = true) (full : p.opacity = 1.0) (isOpaque : p.IsOpaque)
    (changed : InOnePlace (Scene.Node.Exchanged p p.halved) roots roots')
    (parent : Option Scene.Node) : ∃ forest forest' c c',
      Design.build s parent roots = .ok forest ∧ convert s parent roots = .ok c ∧
      Design.build s parent roots' = .ok forest' ∧ convert s parent roots' = .ok c' ∧
      c.warnings = c'.warnings ∧
      (p.paintType = .image → c = c') ∧
      (p.paintType ≠ .image →
        s.framework.artifacts s forest ≠ s.framework.artifacts s forest') := by
  have shows := Scene.shows_of_full visible full
  have shows' := Scene.shows_halved visible
  have drawn (width height : Float) :=
    Paint.fades_toDesign (s := s) isOpaque full width height
  obtain ⟨width, height, exchanged⟩ :=
    Design.exchanged_ofSelection (s := s) shows shows' changed parent .empty
  obtain ⟨P, Q, first, second, fades, image⟩ := drawn width height
  have exchanged := exchanged first second
  have built := Design.build_of_ne_nil exchanged.ne_nil.1
  have built' := Design.build_of_ne_nil exchanged.ne_nil.2
  have left : Design.warningsOf s roots' = Design.warningsOf s roots :=
    Design.warningsOf_exchanged shows shows'
      (fun width height => (drawn width height).imp fun _ ⟨_, first, _⟩ => first)
      (fun width height => by
        obtain ⟨-, Q, -, second, -⟩ := drawn width height
        exact ⟨Q, second⟩) changed
  refine ⟨_, _, _, _, built, convert_of_build built, built', convert_of_build built', ?_,
    fun type => ?_, fun type same => ?_⟩
  · rw [conversionOf, conversionOf, left, s.framework.warnings_exchanged exchanged]
  · rw [left]
    exact conversionOf_exchanged fades (image.mpr type) s _ exchanged
  · exact type (image.mp ((s.framework.artifacts_fades fades s exchanged).mp same))

/-- A black card on a page. -/
theorem Framework.artifacts_halved_card :
    let black : Paint := { color := some .black }
    let page (p : Paint) : Scene.Node :=
      .mk { name := "Page", nodeType := "FRAME" }
        [.mk { name := "Card", nodeType := "FRAME", fills := [p] } []]
    let s := Settings.defaults
    black.visible = true ∧ black.opacity = 1.0 ∧ black.IsOpaque ∧
      InOnePlace (Scene.Node.Exchanged black black.halved) [page black] [page black.halved] ∧
      ∃ forest forest', Design.build s none [page black] = .ok forest ∧
        Design.build s none [page black.halved] = .ok forest' ∧
        s.framework.artifacts s forest ≠ s.framework.artifacts s forest' := by
  intro black page s
  have changed : InOnePlace (Scene.Node.Exchanged black black.halved) [page black]
      [page black.halved] :=
    ⟨[], _, _, [], rfl, rfl, @Scene.Node.Exchanged.inside _ _ _ [] [] _ _ ⟨rfl, rfl⟩
      (.own ⟨rfl, rfl⟩ rfl rfl)⟩
  have isOpaque : black.IsOpaque := show Color.black.a = 1.0 from rfl
  obtain ⟨forest, forest', -, -, built, -, built', -, -, -, differ⟩ :=
    Framework.artifacts_halved (s := s) rfl rfl isOpaque changed none
  exact ⟨rfl, rfl, isOpaque, changed, forest, forest', built, built', differ nofun⟩

/-- Whether this photo is there in full or by half cannot be told. -/
theorem Framework.artifacts_halved_photo :
    let image : Paint := { paintType := .image, imageHash := some "a" }
    let photo (p : Paint) : Scene.Node := .mk
      { id := "1:1", name := "Card", nodeType := "FRAME", width := 40.0, height := 20.0,
        fills := [p] } []
    let s := Settings.defaults
    let forest := (Design.ofSelection s none [photo image] .empty).1
    let forest' := (Design.ofSelection s none [photo image.halved] .empty).1
    let code := "<div style=\"width: 40px; height: 20px; " ++
      "background: url(https://placehold.co/40x20) center / cover no-repeat\"></div>"
    image.visible = true ∧ image.opacity = 1.0 ∧ image.IsOpaque ∧
      InOnePlace (Scene.Node.Exchanged image image.halved) [photo image] [photo image.halved] ∧
      Design.build s none [photo image] = .ok forest ∧
      Design.build s none [photo image.halved] = .ok forest' ∧
      Html.artifacts s forest = [⟨"Code", code, .html⟩] ∧
      Html.artifacts s forest' = [⟨"Code", code, .html⟩] ∧
      Design.warningsOf s [photo image] = [] ∧ Framework.html.warnings forest = [] ∧
      Design.warningsOf s [photo image.halved] = [] ∧ Framework.html.warnings forest' = [] := by
  intro image photo s forest forest' code
  have changed : InOnePlace (Scene.Node.Exchanged image image.halved) [photo image]
      [photo image.halved] := ⟨[], _, _, [], rfl, rfl, .own ⟨rfl, rfl⟩ rfl rfl⟩
  exact ⟨rfl, rfl, trivial, changed, rfl, rfl, by decide +kernel, by decide +kernel,
    by decide +kernel, by decide +kernel, by decide +kernel, by decide +kernel⟩

end Handoff
