import Handoff.CodePanel
import Handoff.Proofs.Outcome
import Handoff.Proofs.TextStyles

/-!
The code panel beside a conversion.

Both put their blocks together from the same three parts: the code of the target, the text
styles and the colors.  They do so in another order and under other titles, and each leaves out
parts that the other has; so blocks are told apart by their titles (`bodies`).

`FollowsConversion` says that what a panel shows for a language is what a conversion makes of
the selection under the settings of that language.  `map_title_blocks` gives the titles of all
blocks: they are those of the target, except that HTML with classes has its style sheet as a
block of its own.
-/

namespace Handoff

open Design (Node TextGroup UsedColors)

/-- The ids that the panel knows, each with its target and whether the markup is JSX. -/
def panelIds : List (String × Framework × Bool) :=
  [("html", .html, false), ("html_jsx", .html, true), ("tailwind", .tailwind, false),
    ("tailwind_jsx", .tailwind, true), ("flutter", .flutter, false), ("swiftUI", .swiftUI, false)]

/-- Settings with the target of a panel, and with widgets without an application. -/
def Settings.forPanel (f : Framework) (jsx : Bool) (s : Settings) : Settings :=
  { s with framework := f, jsx := jsx, flutterScope := .snippet, swiftUIScope := .snippet }

theorem PanelLanguage.ofId?_of_mem {id : String} {f : Framework} {jsx : Bool}
    (known : (id, f, jsx) ∈ panelIds) : PanelLanguage.ofId? id = some ⟨f, jsx⟩ := by
  have table : ∀ entry ∈ panelIds, ofId? entry.1 = some ⟨entry.2.1, entry.2.2⟩ := by decide
  exact table _ known

/-- The panel shows the blocks of the design that a conversion starts from. -/
theorem panelCode_eq {id : String} {f : Framework} {jsx : Bool}
    (known : (id, f, jsx) ∈ panelIds) (s : Settings) (roots : List Scene.Node) :
    panelCode id s roots =
      (Design.build (s.forPanel f jsx) none roots).map
        (PanelLanguage.blocks ⟨f, jsx⟩ (s.forPanel f jsx)) := by
  unfold panelCode
  rw [PanelLanguage.ofId?_of_mem known]
  rfl

/-- The titles of the blocks that the panel is to show for a target. -/
def panelTitles : Framework → List String
  | .html | .flutter => ["Code", "Text Styles"]
  | .tailwind => ["Code", "Tailwind Colors", "Text Styles"]
  | .swiftUI => ["SwiftUI", "Text Styles"]

/-! ## Blocks by their titles -/

/-- The code in the blocks of certain titles. -/
def bodies (wanted : String → Bool) (blocks : List Artifact) : List String :=
  (blocks.filter (wanted ·.title)).map (·.code)

/-- The titles of the blocks that are not code. -/
def appendixTitles : List String := ["Text Styles", "Colors", "Tailwind Colors"]

/-- Whether a block of a title is code. -/
def isCodeTitle (title : String) : Bool := !appendixTitles.contains title

/-- A block of a title that stands in one list as it does in the other, or with a text of its own
where the other has none. -/
def ShownOnce (run panel : List String) (standIn : String) : Prop :=
  ∃ body, panel = [body] ∧ (run = [body] ∨ run = [] ∧ body = standIn)

@[simp] theorem bodies_append (wanted : String → Bool) (before after : List Artifact) :
    bodies wanted (before ++ after) = bodies wanted before ++ bodies wanted after := by
  rw [bodies, List.filter_append, List.map_append]
  rfl

theorem bodies_eq_nil {wanted : String → Bool} {blocks : List Artifact}
    (others : ∀ a ∈ blocks, wanted a.title = false) : bodies wanted blocks = [] := by
  have none : blocks.filter (wanted ·.title) = [] :=
    List.filter_eq_nil_iff.mpr fun a member => Bool.eq_false_iff.mp (others a member)
  rw [bodies, none, List.map_nil]

/-- A block of another title is not found, whether it is there or not. -/
theorem bodies_optional {wanted : String → Bool} {a : Artifact} (other : wanted a.title = false)
    (absent : Bool) : bodies wanted (if absent then [] else [a]) = [] := by
  split
  · rfl
  · exact bodies_eq_nil (List.forall_mem_singleton.mpr other)

section

variable (s : Settings) (forest : List Node)

theorem title_of_mem_artifacts {f : Framework} {a : Artifact}
    (member : a ∈ f.artifacts s forest) : a.title = "Code" ∨ a.title = "Styles" := by
  cases f with
  | html =>
      rcases List.mem_cons.mp member with rfl | sheet
      · exact .inl rfl
      · split at sheet
        · cases sheet
        · exact .inr (congrArg Artifact.title (List.mem_singleton.mp sheet))
  | tailwind | flutter | swiftUI =>
      exact .inl (congrArg Artifact.title (List.mem_singleton.mp member))

/-- All that a target makes is code. -/
theorem bodies_artifacts (f : Framework) :
    bodies isCodeTitle (f.artifacts s forest) = (f.artifacts s forest).map (·.code) := by
  have all : ∀ a ∈ f.artifacts s forest, isCodeTitle a.title = true := by
    intro a member
    rcases title_of_mem_artifacts s forest member with title | title <;> rw [title] <;> rfl
  rw [bodies, List.filter_eq_self.mpr all]

theorem bodies_artifacts_eq_nil {wanted : String → Bool} (code : wanted "Code" = false)
    (sheet : wanted "Styles" = false) (f : Framework) :
    bodies wanted (f.artifacts s forest) = [] := by
  refine bodies_eq_nil fun a member => ?_
  rcases title_of_mem_artifacts s forest member with title | title
  · exact title ▸ code
  · exact title ▸ sheet

/-! ## The blocks of a conversion -/

/-- What stands behind the code of a target is not code. -/
theorem bodies_code_artifactsOf : bodies isCodeTitle (artifactsOf s forest) =
    (s.framework.artifacts s forest).map (·.code) := by
  have textStyles : ∀ groups language,
      isCodeTitle (textStylesArtifact s groups language).title = false := fun _ _ => rfl
  have colors : ∀ used : UsedColors, isCodeTitle (used.artifact s.framework).title = false := by
    intro used
    cases s.framework <;> rfl
  rw [artifactsOf, bodies_append, bodies_append, bodies_artifacts, bodies_optional (textStyles _ _),
    bodies_optional (colors _), List.append_nil, List.append_nil]

theorem bodies_textStyles_artifactsOf : bodies (· == "Text Styles") (artifactsOf s forest) =
    if TextGroup.ofForest forest = [] then []
    else [s.framework.textStyles s (TextGroup.ofForest forest)] := by
  rw [bodies, filter_artifactsOf]
  simp only [← TextGroup.ofForest_eq_nil_iff]
  split <;> rfl

theorem bodies_colors_artifactsOf (target : s.framework = .tailwind) :
    bodies (· == "Tailwind Colors") (artifactsOf s forest) =
      if (UsedColors.ofForest forest).solids = [] then []
      else [((UsedColors.ofForest forest).artifact .tailwind).code] := by
  have textStyles : ∀ groups language,
      ((textStylesArtifact s groups language).title == "Tailwind Colors") = false :=
    fun _ _ => rfl
  rw [artifactsOf, bodies_append, bodies_append, bodies_artifacts_eq_nil s forest rfl rfl,
    bodies_optional (textStyles _ _), target, List.nil_append, List.nil_append]
  simp only [List.isEmpty_iff]
  split <;> rfl

/-! ## The blocks of a panel -/

variable (l : PanelLanguage)

theorem bodies_code_blocks : bodies isCodeTitle (l.blocks s forest) =
    (l.framework.artifacts s forest).map (·.code) := by
  obtain ⟨f, jsx⟩ := l
  cases f with
  | html =>
      have behind : ∀ groups, bodies isCodeTitle [textStylesArtifact s groups .html] = [] :=
        fun _ => rfl
      rw [PanelLanguage.blocks, bodies_append, bodies_artifacts, behind, List.append_nil]
  | tailwind | flutter | swiftUI => rfl

theorem bodies_textStyles_blocks : bodies (· == "Text Styles") (l.blocks s forest) =
    [s.framework.textStyles s (TextGroup.ofForest forest)] := by
  obtain ⟨f, jsx⟩ := l
  cases f with
  | html =>
      rw [PanelLanguage.blocks, bodies_append, bodies_artifacts_eq_nil s forest rfl rfl]
      rfl
  | tailwind | flutter | swiftUI => rfl

theorem bodies_colors_blocks (target : l.framework = .tailwind) :
    bodies (· == "Tailwind Colors") (l.blocks s forest) =
      [((UsedColors.ofForest forest).artifact .tailwind).code] := by
  obtain ⟨f, jsx⟩ := l
  cases target
  rfl

/-- The titles of the blocks are those of the target, but for HTML with classes: its style sheet
is a block of its own. -/
theorem map_title_blocks : (l.blocks s forest).map (·.title) =
    if l.framework = .html ∧ s.inlineStyle = false then ["Code", "Styles", "Text Styles"]
    else panelTitles l.framework := by
  obtain ⟨f, jsx⟩ := l
  cases f with
  | html =>
      have sheet : (Framework.html.artifacts s forest).map (·.title) =
          "Code" :: if s.inlineStyle then [] else ["Styles"] := by
        simp only [Framework.artifacts, Html.artifacts, List.map_cons]
        cases s.inlineStyle <;> rfl
      rw [PanelLanguage.blocks, List.map_append, sheet]
      cases s.inlineStyle <;> rfl
  | tailwind | flutter | swiftUI => rfl

/-- Only one target has its colors in the panel. -/
theorem title_of_mem_blocks (other : l.framework ≠ .tailwind) :
    ∀ a ∈ l.blocks s forest, a.title ≠ "Colors" ∧ a.title ≠ "Tailwind Colors" := by
  have sheet : ∀ title ∈ ["Code", "Styles", "Text Styles"],
      title ≠ "Colors" ∧ title ≠ "Tailwind Colors" := by decide
  have plain : ∀ f : Framework, f ≠ .tailwind → ∀ title ∈ panelTitles f,
      title ≠ "Colors" ∧ title ≠ "Tailwind Colors" := by
    intro f differs
    cases f with
    | tailwind => exact absurd rfl differs
    | html | flutter | swiftUI => decide
  intro a member
  have listed := List.mem_map_of_mem (f := Artifact.title) member
  rw [map_title_blocks] at listed
  split at listed
  · exact sheet _ listed
  · exact plain _ other _ listed

end

/-! ## Panel and conversion -/

/-- The blocks of a panel, and those of the conversion that has the same code. -/
structure SameBlocks (t : Settings) (forest : List Node) (run panel : List Artifact) : Prop where
  generated : bodies isCodeTitle run = (t.framework.artifacts t forest).map (·.code)
  code : bodies isCodeTitle panel = bodies isCodeTitle run
  /-- Where the conversion has no text styles, the panel has the definitions of none. -/
  textStyles : ShownOnce (bodies (· == "Text Styles") run) (bodies (· == "Text Styles") panel)
    (t.framework.textStyles t [])
  /-- Only one target has its colors in the panel, and has them even where there are none. -/
  colors : if t.framework = .tailwind then
      ShownOnce (bodies (· == "Tailwind Colors") run) (bodies (· == "Tailwind Colors") panel) ""
    else ∀ a ∈ panel, a.title ≠ "Colors" ∧ a.title ≠ "Tailwind Colors"

theorem sameBlocks (t : Settings) (forest : List Node) (l : PanelLanguage)
    (target : l.framework = t.framework) :
    SameBlocks t forest (artifactsOf t forest) (l.blocks t forest) := by
  constructor
  case generated => exact bodies_code_artifactsOf t forest
  case code => rw [bodies_code_blocks, bodies_code_artifactsOf, target]
  case textStyles =>
    refine ⟨_, bodies_textStyles_blocks t forest l, ?_⟩
    rw [bodies_textStyles_artifactsOf]
    split
    · rename_i none
      exact .inr ⟨rfl, by rw [none]⟩
    · exact .inl rfl
  case colors =>
    split
    · rename_i tailwind
      refine ⟨_, bodies_colors_blocks t forest l (target.trans tailwind), ?_⟩
      rw [bodies_colors_artifactsOf t forest tailwind]
      split
      · rename_i none
        refine .inr ⟨rfl, ?_⟩
        unfold UsedColors.artifact
        rw [none]
        rfl
      · exact .inl rfl
    · rename_i other
      exact title_of_mem_blocks t forest l (target ▸ other)

/-- What a panel shows for an id, and what a conversion under certain settings makes of the same
selection. -/
structure FollowsConversion (id : String) (s t : Settings) (roots : List Scene.Node) : Prop where
  shown : (∃ n ∈ roots, n.layer.visible = true) → ∃ forest c panel,
    Design.build t none roots = .ok forest ∧ convert t none roots = .ok c ∧
      panelCode id s roots = .ok panel ∧ SameBlocks t forest c.artifacts panel
  refused : ∀ cause, panelCode id s roots = .error cause ↔ convert t none roots = .error cause
  /-- The target and the scopes in the settings are not looked at. -/
  independent : ∀ framework jsx flutterScope swiftUIScope,
    panelCode id { s with framework, jsx, flutterScope, swiftUIScope } roots =
      panelCode id s roots

section

variable {id : String} {f : Framework} {jsx : Bool}

/-- A selection either has nothing visible in it, and neither a conversion nor an answer of the
panel, or there are both, made of one design. -/
theorem panelCode_cases (known : (id, f, jsx) ∈ panelIds) (s : Settings)
    (roots : List Scene.Node) :
    let t := s.forPanel f jsx
    ((∀ n ∈ roots, n.layer.visible = false) ∧ convert t none roots = .error .emptySelection ∧
        panelCode id s roots = .error .emptySelection) ∨
      ((∃ n ∈ roots, n.layer.visible = true) ∧ ∃ forest c,
        Design.build t none roots = .ok forest ∧ convert t none roots = .ok c ∧
          c.artifacts = artifactsOf t forest ∧
          panelCode id s roots = .ok (PanelLanguage.blocks ⟨f, jsx⟩ t forest)) := by
  intro t
  rw [panelCode_eq known]
  unfold convert
  rcases Design.build_cases t none roots with ⟨hidden, refused⟩ | ⟨visible, built⟩
  · rw [refused]
    exact .inl ⟨hidden, rfl, rfl⟩
  · rw [built]
    exact .inr ⟨visible, _, _, rfl, rfl, rfl, rfl⟩

theorem panelCode_of_visible (known : (id, f, jsx) ∈ panelIds) (s : Settings)
    {roots : List Scene.Node} (visible : ∃ n ∈ roots, n.layer.visible = true) :
    let t := s.forPanel f jsx
    ∃ forest c, Design.build t none roots = .ok forest ∧ convert t none roots = .ok c ∧
      c.artifacts = artifactsOf t forest ∧
      panelCode id s roots = .ok (PanelLanguage.blocks ⟨f, jsx⟩ t forest) := by
  rcases panelCode_cases known s roots with ⟨hidden, -⟩ | ⟨-, shown⟩
  · obtain ⟨n, member, shows⟩ := visible
    rw [hidden n member] at shows
    cases shows
  · exact shown

/-- The panel shows for a language what a conversion makes under the settings of that language,
and refuses a selection if and only if the conversion does. -/
theorem followsConversion_of_mem (known : (id, f, jsx) ∈ panelIds) (s : Settings)
    (roots : List Scene.Node) : FollowsConversion id s (s.forPanel f jsx) roots := by
  constructor
  case shown =>
    intro visible
    obtain ⟨forest, c, built, done, artifacts, shown⟩ := panelCode_of_visible known s visible
    have same := sameBlocks (s.forPanel f jsx) forest ⟨f, jsx⟩ rfl
    exact ⟨forest, c, _, built, done, shown, artifacts ▸ same⟩
  case refused =>
    intro cause
    rcases panelCode_cases known s roots with
      ⟨-, failed, refused⟩ | ⟨-, forest, c, -, done, -, shown⟩
    · rw [refused, failed, Except.error.injEq, Except.error.injEq]
    · rw [done, shown]
      constructor <;> rintro ⟨⟩
  case independent =>
    intro framework jsx' flutterScope swiftUIScope
    rw [panelCode_eq known, panelCode_eq known]
    rfl

/-- A text on a frame, shown with the colors of a language and then its text styles. -/
theorem followsConversion_of_mem_label :
    let label : Scene.Node :=
      .mk { nodeType := "FRAME" } [.mk { nodeType := "TEXT", characters := some "Hi" } []]
    let s := Settings.defaults
    let t := s.forPanel .tailwind true
    ("tailwind_jsx", .tailwind, true) ∈ panelIds ∧ label.layer.visible = true ∧
      FollowsConversion "tailwind_jsx" s t [label] := by
  intro label s t
  have known : ("tailwind_jsx", .tailwind, true) ∈ panelIds := by decide
  exact ⟨known, rfl, followsConversion_of_mem known s [label]⟩

/-- The panel shows a visible selection under the titles of the target if and only if HTML has
its styles on the elements; otherwise the style sheet stands between the code and the text
styles. -/
theorem panelTitles_iff (known : (id, f, jsx) ∈ panelIds) (s : Settings)
    {roots : List Scene.Node} (visible : ∃ n ∈ roots, n.layer.visible = true) :
    ∃ panel, panelCode id s roots = .ok panel ∧
      (panel.map (·.title) = panelTitles f ↔ (f = .html → s.inlineStyle = true)) ∧
      (f = .html → s.inlineStyle = false →
        panel.map (·.title) = ["Code", "Styles", "Text Styles"]) := by
  obtain ⟨forest, -, -, -, -, shown⟩ := panelCode_of_visible known s visible
  have titles := map_title_blocks (s.forPanel f jsx) forest ⟨f, jsx⟩
  have inline : (s.forPanel f jsx).inlineStyle = s.inlineStyle := rfl
  refine ⟨_, shown, ?_⟩
  rw [titles, inline]
  split
  · rename_i sheet
    obtain ⟨rfl, classes⟩ := sheet
    have differ : ["Code", "Styles", "Text Styles"] ≠ panelTitles .html := by decide
    refine ⟨⟨fun same => absurd same differ, fun onElements => ?_⟩, fun _ _ => rfl⟩
    rw [onElements rfl] at classes
    cases classes
  · rename_i noSheet
    have onElements : f = .html → s.inlineStyle = true := fun target =>
      Bool.of_not_eq_false fun classes => noSheet ⟨target, classes⟩
    exact ⟨⟨fun _ => onElements, fun _ => rfl⟩,
      fun target classes => absurd ⟨target, classes⟩ noSheet⟩

/-- A frame has two blocks in the panel for SwiftUI, also where HTML would be written with
classes. -/
theorem panelTitles_iff_frame :
    let frame : Scene.Node := .mk { nodeType := "FRAME" } []
    let s := { Settings.defaults with inlineStyle := false }
    ∃ panel, panelCode "swiftUI" s [frame] = .ok panel ∧
      panel.map (·.title) = ["SwiftUI", "Text Styles"] := by
  intro frame s
  have known : ("swiftUI", .swiftUI, false) ∈ panelIds := by decide
  have visible : ∃ n ∈ [frame], n.layer.visible = true := ⟨frame, List.mem_singleton_self _, rfl⟩
  obtain ⟨panel, shown, titles, -⟩ := panelTitles_iff known s visible
  exact ⟨panel, shown, titles.mpr fun other => nomatch other⟩

/-- For HTML with classes the panel shows a block more than it is to show. -/
theorem not_panelTitles :
    let red : Scene.Paint := { color := some (.rgb 1.0 0.0 0.0) }
    let card : Scene.Node :=
      .mk { nodeType := "FRAME", name := "Card", width := 40.0, height := 20.0, fills := [red] } []
    let s := { Settings.defaults with inlineStyle := false }
    ("html", .html, false) ∈ panelIds ∧ card.layer.visible = true ∧
      ∃ panel, panelCode "html" s [card] = .ok panel ∧
        panel.map (·.title) = ["Code", "Styles", "Text Styles"] ∧
        panel.map (·.title) ≠ panelTitles .html := by
  intro red card s
  have known : ("html", .html, false) ∈ panelIds := by decide
  have visible : ∃ n ∈ [card], n.layer.visible = true := ⟨card, List.mem_singleton_self _, rfl⟩
  obtain ⟨forest, -, -, -, -, shown⟩ := panelCode_of_visible known s visible
  have titles := map_title_blocks (s.forPanel .html false) forest ⟨.html, false⟩
  have sheet : panelTitles .html ≠ ["Code", "Styles", "Text Styles"] := by decide
  rw [if_pos ⟨rfl, rfl⟩] at titles
  exact ⟨known, rfl, _, shown, titles, titles ▸ sheet.symm⟩

end

end Handoff
