import Handoff.Conversion
import Handoff.Proofs.Design.TextGroups
import Handoff.Proofs.Template.Scaffold
import Handoff.Proofs.TextStyles.Definitions

/-!
The text styles of a design.

The texts of a design are put into classes of equal typography, and each target defines each
class once: `definedOnce_of_finite` follows the classes from the nodes of a forest to the
artifact of the text styles.

Where definitions are declarations, an identifier no longer has the underscores that keep two
numbers in a name apart.  `nodup_identifiers_iff` says when two text styles share one.
-/

namespace Handoff

open Design (Node TextGroup)
open Text (OneLine declaredNames)

/-! ## Classes and definitions -/

/-- The text styles are an artifact of their own, and only where there are texts. -/
theorem filter_artifactsOf (s : Settings) (forest : List Node) :
    (artifactsOf s forest).filter (·.title == "Text Styles") =
      if Design.textsOf forest = [] then []
      else [textStylesArtifact s (TextGroup.ofForest forest)
        (s.framework.textStylesLanguage s)] := by
  have code : (s.framework.artifacts s forest).filter (·.title == "Text Styles") = [] := by
    cases s.framework with
    | html =>
        simp only [Framework.artifacts, Html.artifacts]
        split <;> rfl
    | tailwind | flutter | swiftUI => rfl
  have colors : ∀ used : Design.UsedColors,
      (if used.solids.isEmpty then [] else [used.artifact s.framework]).filter
        (·.title == "Text Styles") = [] := by
    intro used
    split
    · rfl
    · cases s.framework <;> rfl
  have empty : (TextGroup.ofForest forest).isEmpty = true ↔ Design.textsOf forest = [] :=
    List.isEmpty_iff.trans TextGroup.ofForest_eq_nil_iff
  rw [artifactsOf, List.filter_append, List.filter_append, code, colors, List.append_nil,
    List.nil_append]
  by_cases none : Design.textsOf forest = []
  · rw [if_pos none, if_pos (empty.mpr none), List.filter_nil]
  · rw [if_neg none, if_neg fun isEmpty => none (empty.mp isEmpty)]
    rfl

/-- The text styles of a forest, as they are found and as they are written. -/
structure DefinedOnce (forest : List Node) (groups : List TextGroup) : Prop where
  partition : TextGroup.Partition (Design.textsOf forest) groups
  /-- Every text is in one group. -/
  one : ∀ text ∈ Design.textsOf forest, ∃ g, groups.filter (·.fits text) = [g]
  /-- All groups together list the texts, each as often as it is there. -/
  listed : (groups.flatMap (·.nodeIds)).Perm ((Design.textsOf forest).map (·.1))
  /-- So an id that no two texts share is in one group. -/
  oneId : ((Design.textsOf forest).map (·.1)).Nodup →
    ∀ text ∈ Design.textsOf forest, ∃ g, groups.filter (·.nodeIds.contains text.1) = [g]
  names : (groups.map (·.name)).Nodup
  identifiers : ∀ g ∈ groups, Naming.isIdentifier g.name = true
  /-- Every target writes one definition for each group. -/
  written : ∀ (s : Settings) (f : Framework), f.textStyles s groups =
    f.styleSeparator.intercalate (groups.map fun g => f.styleDefinition s g)
  /-- Read as lines, the definitions declare the groups in turn. -/
  declared : ∀ (s : Settings) (f : Framework), (∀ g ∈ groups, f.KeepsLines g) →
    declaredNames (f.styleKeyword s) (f.textStyles s groups) = groups.map fun g => f.styleName s g
  /-- Where a template goes through the groups, it gives the same. -/
  rendered : ∀ s : Settings,
    (Template.render? Tailwind.textStylesTemplate (Tailwind.textStylesData s groups)).map
        Text.trim =
      some (Framework.tailwind.textStyles s groups)
  /-- The text styles are shown if and only if there is a text. -/
  shown : ∀ s : Settings, (∃ a ∈ artifactsOf s forest, a.title = "Text Styles") ↔
    ∃ n ∈ Node.preorderList forest, n.box.style.text.isSome = true
  only : ∀ s : Settings, ∀ a ∈ artifactsOf s forest, a.title = "Text Styles" →
    a.code = s.framework.textStyles s groups

/-- The texts of every forest with finite numbers are put into the classes of equal typography,
and each target defines each class once. -/
theorem definedOnce_of_finite {forest : List Node}
    (finite : ∀ text ∈ Design.textsOf forest, text.2.typography.IsFinite) :
    DefinedOnce forest (TextGroup.ofForest forest) := by
  have classes := TextGroup.partition_ofForest finite
  have snake : ∀ g ∈ TextGroup.ofForest forest, Text.IsSnake g.name.toList :=
    fun g member => TextGroup.isSnake_name member
  have kept : ∀ (s : Settings) (a : Artifact),
      (a ∈ artifactsOf s forest ∧ a.title = "Text Styles") ↔
      a ∈ if Design.textsOf forest = [] then []
        else [textStylesArtifact s (TextGroup.ofForest forest)
          (s.framework.textStylesLanguage s)] := by
    intro s a
    rw [← filter_artifactsOf, List.mem_filter, beq_iff_eq]
  constructor
  case partition => exact classes
  case one => exact fun text member => classes.filter_fits member
  case listed => exact TextGroup.perm_ofForest forest
  case oneId =>
    intro distinct text member
    obtain ⟨g, only⟩ := classes.filter_fits member
    refine ⟨g, (List.filter_congr fun h among => ?_).trans only⟩
    rw [Bool.eq_iff_iff, List.contains_iff_mem]
    exact classes.mem_nodeIds_iff among distinct member
  case names => exact TextGroup.nodup_names forest
  case identifiers => exact fun g member => TextGroup.isIdentifier_name member
  case written => exact fun s f => f.textStyles_eq s _
  case declared => exact fun s f lines => f.declaredNames_textStyles s snake lines
  case rendered => exact fun s => Tailwind.render_textStyles s _
  case shown =>
    intro s
    rw [← Design.textsOf_ne_nil_iff]
    constructor
    · rintro ⟨a, member, title⟩ none
      have inside := (kept s a).mp ⟨member, title⟩
      rw [if_pos none] at inside
      cases inside
    · intro filled
      have inside := (kept s _).mpr (by rw [if_neg filled]; exact List.mem_singleton_self _)
      exact ⟨_, inside⟩
  case only =>
    intro s a member title
    have inside := (kept s a).mp ⟨member, title⟩
    split at inside
    · cases inside
    · rw [List.mem_singleton.mp inside]
      rfl

/-- Three texts, the last set like the first; the second is centered, which its name does not
say. -/
theorem definedOnce_of_finite_texts :
    let text (id characters : String) (textAlign : Scene.TextAlign) : Scene.Node :=
      .mk { id, nodeType := "TEXT", characters := some characters, textAlign } []
    let s := Settings.defaults
    let roots := [text "1:1" "one" .left, text "1:2" "two" .center, text "1:3" "three" .left]
    let forest := (Design.ofSelection s none roots .empty).1
    (∀ text ∈ Design.textsOf forest, text.2.typography.IsFinite) ∧
      (TextGroup.ofForest forest).map (fun g => (g.name, g.nodeIds, g.sample)) =
        [("inter_12_normal", ["1:1", "1:3"], "one"), ("inter_12_normal_2", ["1:2"], "two")] ∧
      DefinedOnce forest (TextGroup.ofForest forest) := by
  intro text s roots forest
  have finite : ∀ text ∈ Design.textsOf forest, text.2.typography.IsFinite := by decide +kernel
  exact ⟨finite, by decide +kernel, definedOnce_of_finite finite⟩

/-! ## Declared identifiers -/

section

variable (forest : List Node)

/-- Where definitions are declarations, no two identifiers are equal if and only if no two names
are after the underscores between digits are taken out. -/
theorem nodup_map_styleName_iff {style : String → String}
    (inj : ∀ g ∈ TextGroup.ofForest forest, ∀ h ∈ TextGroup.ofForest forest,
      (style g.name = style h.name ↔ Text.closeNumbers g.name = Text.closeNumbers h.name)) :
    ((TextGroup.ofForest forest).map fun g => style g.name).Nodup ↔
      ((TextGroup.ofForest forest).map fun g => Text.closeNumbers g.name).Nodup := by
  rw [List.nodup_iff_pairwise_ne, List.nodup_iff_pairwise_ne, List.pairwise_map, List.pairwise_map]
  constructor
  · exact fun apart => apart.imp_of_mem fun first second differ same =>
      differ ((inj _ first _ second).mpr same)
  · exact fun apart => apart.imp_of_mem fun first second differ same =>
      differ ((inj _ first _ second).mp same)

/-- The identifiers that the text styles declare in Dart, in Swift and as style objects are
pairwise distinct if and only if the names of the text styles are after the underscores between
digits are taken out: 12.5 and 125 make one identifier of two sizes. -/
theorem nodup_identifiers_iff (s : Settings) :
    let groups := TextGroup.ofForest forest
    let apart := (groups.map fun g => Text.closeNumbers g.name).Nodup
    ((declaredNames "final " (Dart.textStyles groups)).Nodup ↔ apart) ∧
      ((declaredNames "struct " (Swift.textStyles groups)).Nodup ↔ apart) ∧
      ((groups.map fun g => Framework.html.styleName { s with jsx := true } g).Nodup ↔ apart) ∧
      ((∀ g ∈ groups, OneLine g.typography.family) →
        declaredNames "const " (Html.textStyles { s with jsx := true } groups) =
          groups.map fun g => Framework.html.styleName { s with jsx := true } g) := by
  intro groups apart
  have snake : ∀ g ∈ groups, Text.IsSnake g.name.toList :=
    fun g member => TextGroup.isSnake_name member
  have letter : ∀ g ∈ groups, g.name.toList.head?.any Char.isLower = true := by
    intro g member
    obtain ⟨c, cs, chars, lower, -⟩ :=
      Naming.isIdentifier_iff.mp (TextGroup.isIdentifier_name member)
    rw [chars]
    exact lower
  have camel := nodup_map_styleName_iff forest fun g first h second =>
    Text.camel_eq_iff (snake g first) (snake h second) (letter g first) (letter h second)
  have pascal := nodup_map_styleName_iff forest fun g first h second =>
    Text.pascal_eq_iff (snake g first) (snake h second)
  have dart : declaredNames "final " (Dart.textStyles groups) =
      groups.map fun g => Text.camel g.name :=
    Framework.declaredNames_textStyles s snake .flutter fun _ _ => trivial
  have swift : declaredNames "struct " (Swift.textStyles groups) =
      groups.map fun g => Text.pascal g.name :=
    Framework.declaredNames_textStyles s snake .swiftUI fun _ _ => trivial
  rw [dart, swift]
  exact ⟨camel, pascal, camel,
    Framework.declaredNames_textStyles { s with jsx := true } snake .html⟩

/-- Texts of the sizes 12.5 and 125 have text styles of two names and one identifier. -/
theorem not_nodup_identifiers :
    let text (size : Float) : Scene.Node :=
      .mk { nodeType := "TEXT", characters := some "Hi", fontSize := some size } []
    let s := { Settings.defaults with jsx := true }
    let roots := [text 12.5, text 125.0]
    let forest := (Design.ofSelection s none roots .empty).1
    let groups := TextGroup.ofForest forest
    Design.build s none roots = .ok forest ∧
      groups.map (·.name) = ["inter_12_5_normal", "inter_125_normal"] ∧
      declaredNames "final " (Framework.flutter.textStyles s groups) =
        ["inter125Normal", "inter125Normal"] ∧
      declaredNames "struct " (Framework.swiftUI.textStyles s groups) =
        ["Inter125Normal", "Inter125Normal"] ∧
      declaredNames "const " (Framework.html.textStyles s groups) =
        ["inter125Normal", "inter125Normal"] := by
  intro text s roots forest groups
  have built : Design.build s none roots = .ok forest := rfl
  have names : groups.map (·.name) = ["inter_12_5_normal", "inter_125_normal"] := by
    decide +kernel
  have families : ∀ g ∈ groups, OneLine g.typography.family := by decide +kernel
  have snake : ∀ g ∈ groups, Text.IsSnake g.name.toList :=
    fun g member => TextGroup.isSnake_name member
  -- From here on nothing has to be computed from the texts.
  clear_value groups
  have styled : ∀ {style : String → String} {identifier : String},
      (∀ name ∈ ["inter_12_5_normal", "inter_125_normal"], style name = identifier) →
        groups.map (fun g => style g.name) = [identifier, identifier] := by
    intro style identifier alike
    have each := List.map_congr_left alike
    rw [← names, List.map_map, names] at each
    exact each
  have literal : ∀ name ∈ ["inter_12_5_normal", "inter_125_normal"],
      Text.IsSnake name.toList := by
    rw [← names]
    exact List.forall_mem_map.mpr snake
  have camel : ∀ name ∈ ["inter_12_5_normal", "inter_125_normal"],
      Text.camel name = "inter125Normal" := by
    intro name member
    rw [← String.toList_inj, Text.toList_camel (literal name member)]
    revert name
    decide
  have pascal : ∀ name ∈ ["inter_12_5_normal", "inter_125_normal"],
      Text.pascal name = "Inter125Normal" := by
    intro name member
    rw [← String.toList_inj, Text.toList_pascal (literal name member)]
    revert name
    decide
  have dart := Framework.declaredNames_textStyles s snake .flutter fun _ _ => trivial
  have swift := Framework.declaredNames_textStyles s snake .swiftUI fun _ _ => trivial
  have script := Framework.declaredNames_textStyles s snake .html families
  exact ⟨built, names, dart.trans (styled camel), swift.trans (styled pascal),
    script.trans (styled camel)⟩

end

end Handoff
