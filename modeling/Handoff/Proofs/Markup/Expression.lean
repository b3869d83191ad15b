import Handoff.Proofs.Css.Properties
import Handoff.Proofs.Design.SnakeNames
import Handoff.Proofs.Html.StyleStrings
import Handoff.Proofs.Markup.Jsx
import Handoff.Proofs.Tailwind.ClassLists

/-!
Whether the JSX of a design is one expression.

JSX is pasted where an expression is expected, and there one node may stand and nothing beside it.
That several roots are put into a fragment is not enough for that: a comment is no node, and in
Tailwind the name of a layer is a comment in front of its element.  Below a root the comment is in
the element of the root, or else in the fragment.  In front of the only root it is beside the node
(`CommentBeside`).

This is so if an attribute is what is written as one (`Written`).  As script reads them, attributes
are closed where they end unless the name of a font breaks its string, or in Tailwind has a quote
in it.

The main statement is `oneNode_of_build`.
-/

namespace Handoff

open Design (Node)
open Markup (Attribute Attributes AttributesRead attributesOf)
open Markup.Jsx (IsAttribute IsCode IsName IsNode IsQuoted)

/-! ## Attributes -/

namespace Markup.Jsx

/-- What is written as one of the attributes of a forest. -/
def Written (attributes : Attributes) (forest : List Node) (cs : List Char) : Prop :=
  ∃ visit ∈ Markup.visitsOfList none forest, ∃ a ∈ attributesOf attributes visit.1 visit.2,
    cs = (a.text .jsx).toList

theorem isAttribute_source {url : String} (plain : '"' ∉ url.toList) :
    IsAttribute ((Attribute.source url).text .jsx).toList := by
  have name : IsName "src".toList := by simp [IsName]
  rw [Attribute.text, String.toList_append, String.toList_append]
  exact .quoted name plain

theorem isAttribute_layer (name : String) : IsAttribute ((Attribute.layer name).text .jsx).toList := by
  have label : IsName "data-layer".toList := by simp [IsName]
  rw [Attribute.text, String.toList_append, String.toList_append]
  exact .quoted label (Text.not_mem_html (by simp) name)

theorem isAttribute_classes {names : List String}
    (plain : '"' ∉ (Tailwind.listValue names).toList) :
    IsAttribute ((Attribute.classes names).text .jsx).toList := by
  have label : IsName "className".toList := by simp [IsName]
  have whole := IsAttribute.quoted label plain
  rw [Attribute.text, String.toList_append, String.toList_append, String.toList_append,
    List.append_assoc, List.append_assoc]
  exact whole

/-! ## Style objects -/

/-- A text is a string of script if no character breaks it. -/
theorem isQuoted_styleString {value : String} (kept : ¬Script.Breaks true value) :
    IsQuoted '"' (Text.styleString value).toList := by
  have each : ∀ c ∈ value.toList, c ∉ ['\\', '\n', '\r'] :=
    fun c member breaks => kept ⟨c, breaks, member⟩
  rw [Text.styleString, Text.escapeWith, String.toList_ofList]
  generalize value.toList = cs at each
  induction cs with
  | nil => exact .nil
  | cons c cs ih =>
      obtain ⟨own, others⟩ := List.forall_mem_cons.mp each
      rw [List.flatMap_cons]
      by_cases quote : c = '"'
      · rw [quote]
        exact .escaped '"' (ih others)
      · have single : Text.quoteEscape c = [c] := by
          unfold Text.quoteEscape
          split
          · contradiction
          · rfl
        rw [single]
        exact .plain (by simpa [quote] using own) (ih others)

theorem isCode_ofText {cs : List Char}
    (plain : ∀ c ∈ cs, c ∉ ['"', '\'', '`', '/', '\\', '\x7b', '\x7d']) : IsCode cs := by
  induction cs with
  | nil => exact .nil
  | cons c cs ih =>
      obtain ⟨own, others⟩ := List.forall_mem_cons.mp plain
      exact .append (.plain own) (ih others)

theorem isCode_intercalate {separator : String} (between : IsCode separator.toList)
    {texts : List String} (each : ∀ text ∈ texts, IsCode text.toList) :
    IsCode (separator.intercalate texts).toList := by
  induction texts with
  | nil => exact .nil
  | cons first rest ih =>
      obtain ⟨own, others⟩ := List.forall_mem_cons.mp each
      cases rest with
      | nil => rwa [String.intercalate_singleton]
      | cons next rest =>
          rw [String.intercalate_cons_cons, String.toList_append, String.toList_append]
          exact .append (.append own between) (ih others)

/-- A declaration is a property of an object if its value is kept. -/
theorem isCode_scriptProperty {d : Css.Declaration}
    (kebab : Css.IsKebab (Css.common d.property.toList))
    (kept : ¬Script.Breaks true d.value) : IsCode (Markup.scriptProperty d).toList := by
  have label : IsCode (Css.scriptName d.property).toList := by
    have marks : ∀ c ∈ ['"', '\'', '`', '/', '\\', '\x7b', '\x7d'], Naming.isPlain c = false := by
      simp [Naming.isPlain]
    refine isCode_ofText fun c member mark => ?_
    have letter := Css.isPlain_scriptName kebab c member
    rw [marks c mark] at letter
    cases letter
  have colon : IsCode [':', ' '] := isCode_ofText (by simp)
  have value := @IsCode.string '"' _ (by simp) (isQuoted_styleString kept)
  have property := IsCode.append label (.append colon value)
  have opening : ": \"".toList = [':', ' ', '"'] := by simp
  have closing : "\"".toList = ['"'] := by simp
  rw [Markup.scriptProperty, String.toList_append, String.toList_append, String.toList_append,
    opening, closing]
  simpa only [List.append_assoc, List.cons_append, List.nil_append] using property

theorem isAttribute_style {ds : List Css.Declaration}
    (each : ∀ d ∈ ds, IsCode (Markup.scriptProperty d).toList) :
    IsAttribute ((Attribute.style ds).text .jsx).toList := by
  have label : IsName "style".toList := by simp [IsName]
  have separator : IsCode ", ".toList := isCode_ofText (by simp)
  have object := IsCode.block (isCode_intercalate separator (List.forall_mem_map.mpr each))
  have whole := IsAttribute.code label object
  have opening : "style=\x7b\x7b".toList = "style".toList ++ ['=', '\x7b', '\x7b'] := by simp
  have closing : "\x7d\x7d".toList = ['\x7d', '\x7d'] := by simp
  rw [Attribute.text, String.toList_append, String.toList_append, opening, closing]
  simpa only [List.append_assoc, List.cons_append, List.nil_append] using whole

end Markup.Jsx

open Markup.Jsx (Written isAttribute_source isAttribute_layer isAttribute_classes
  isAttribute_style isCode_scriptProperty)

theorem Css.isKebab_nodeProperties : ∀ property ∈ "font-family" :: Css.nodeProperties,
    Css.IsKebab (Css.common property.toList) := by
  decide +kernel

/-! ## Nodes -/

/-- The attributes of a node in HTML are closed where they end, unless a font breaks its string. -/
theorem Html.isAttribute_of_mem {t : Settings} {parent : Option Node} {n : Node}
    (snake : Text.IsSnake n.box.uniqueName.toList)
    (kept : t.inlineStyle = true → ∀ x, n.box.style.text = some x →
      ¬Script.Breaks true x.typography.family) :
    ∀ a ∈ attributesOf (Html.attributes t) parent n, IsAttribute (a.text .jsx).toList := by
  have own : ∀ a ∈ Html.attributes t parent n, IsAttribute (a.text .jsx).toList := by
    intro a member
    rcases List.mem_append.mp member with layer | style
    · unfold Html.layerAttribute at layer
      split at layer
      · obtain ⟨name, -, rfl⟩ := List.mem_map.mp layer
        exact isAttribute_layer name
      · cases layer
    · unfold Html.styleAttribute at style
      split at style
      · cases style
      · rw [List.mem_singleton.mp style]
        split
        · rename_i inline
          refine isAttribute_style fun d among => isCode_scriptProperty ?_ ?_
          · refine Css.isKebab_nodeProperties d.property ?_
            rcases Css.mem_declarations among with ⟨listed, -⟩ | ⟨x, -, rfl⟩
            · exact List.mem_cons_of_mem _ listed
            · exact List.mem_cons_self
          · rw [Css.breaks_of_mem_declarations among]
            rintro ⟨-, x, text, breaks⟩
            exact kept inline x text breaks
        · refine isAttribute_classes fun quote => ?_
          rw [Tailwind.listValue, Markup.Attribute.value, String.intercalate_singleton] at quote
          rcases Text.mem_kebab snake '"' quote with dash | letter
          · cases dash
          · cases letter
  rw [attributesOf]
  split
  · refine List.forall_mem_cons.mpr ⟨isAttribute_source ?_, own⟩
    exact (Css.within_placeholder n.box).not_mem (by decide)
  · exact own

/-- The attributes of a node in Tailwind are closed where they end, unless there is a quote in the
name of a font. -/
theorem Tailwind.isAttribute_of_mem {t : Settings} {parent : Option Node} {n : Node}
    (called : Tailwind.NodeCalled n)
    (plain : ∀ x, n.box.style.text = some x → '"' ∉ x.typography.family.toList) :
    ∀ a ∈ attributesOf (Tailwind.attributes t) parent n, IsAttribute (a.text .jsx).toList := by
  have own : ∀ a ∈ Tailwind.attributes t parent n, IsAttribute (a.text .jsx).toList := by
    intro a member
    unfold Tailwind.attributes at member
    split at member
    · cases member
    · rw [List.mem_singleton.mp member]
      refine isAttribute_classes fun quote => ?_
      obtain ⟨family, present, inside⟩ := (Tailwind.quote_mem_listValue_iff called).mp quote
      obtain ⟨x, text, rfl⟩ := Option.map_eq_some_iff.mp present
      exact plain x text inside
  rw [attributesOf]
  split
  · refine List.forall_mem_cons.mpr ⟨isAttribute_source ?_, own⟩
    exact (Css.within_placeholder n.box).not_mem (by decide)
  · exact own

/-! ## Designs -/

/-- A comment stands in front of the only element. -/
def CommentBeside (t : Settings) (forest : List Node) : Prop :=
  t.showLayerNames = true ∧ ∃ root name, forest = [root] ∧ root.box.name = some name

/-- What the JSX of a design is. -/
structure OneNode (t : Settings) (roots : List Scene.Node) (forest : List Node) : Prop where
  html : IsNode (Written (Html.attributes t) forest) (Html.code t forest).toList
  tailwind : IsNode (Written (Tailwind.attributes t) forest) (Tailwind.code t forest).toList ↔
    ¬CommentBeside t forest
  /-- The comment and the node that are found in the other case. -/
  beside : CommentBeside t forest → ∃ name cs,
    IsNode (Written (Tailwind.attributes t) forest) cs ∧
    (Tailwind.code t forest).toList = (Markup.comment .jsx name).toList ++ '\n' :: cs
  /-- The node is one for script as well, if no font of a text shown breaks its string. -/
  html_read : (t.inlineStyle = true → ∀ layer ∈ Scene.Node.layersAll (Scene.shownForest roots),
      layer.kind = .text → ¬Script.Breaks true layer.fontFamily) →
    IsNode IsAttribute (Html.code t forest).toList
  /-- Likewise if no font of a text shown has a quote in its name. -/
  tailwind_read : (∀ layer ∈ Scene.Node.layersAll (Scene.shownForest roots),
      layer.kind = .text → '"' ∉ layer.fontFamily.toList) →
    (IsNode IsAttribute (Tailwind.code t forest).toList ↔ ¬CommentBeside t forest)

section

variable {s : Settings} {host : Option Scene.Node} {roots : List Scene.Node} {forest : List Node}
  {isAttribute : List Char → Prop}

theorem attributesRead_of_build (built : Design.build s host roots = .ok forest)
    {attributes : Attributes} (each : ∀ parent, ∀ n ∈ Node.preorderList forest,
      ∀ a ∈ attributesOf attributes parent n, isAttribute (a.text .jsx).toList) :
    AttributesRead isAttribute attributes none forest := by
  intro visit member
  rw [← Markup.visits, Markup.visits_of_build built] at member
  exact each visit.1 visit.2 (Node.mem_of_mem_preorderListUnder member)

theorem isNode_html {t : Settings} (jsx : t.jsx = true) (present : forest ≠ [])
    (read : AttributesRead isAttribute (Html.attributes t) none forest) :
    IsNode isAttribute (Html.code t forest).toList := by
  rw [Html.code, Markup.Dialect.ofSettings, if_pos jsx,
    Markup.isNode_document_iff present read]
  rintro ⟨root, name, -, named⟩
  cases named

theorem isNode_tailwind_iff {t : Settings} (jsx : t.jsx = true) (present : forest ≠ [])
    (read : AttributesRead isAttribute (Tailwind.attributes t) none forest) :
    IsNode isAttribute (Tailwind.code t forest).toList ↔ ¬CommentBeside t forest := by
  rw [Tailwind.code, Markup.Dialect.ofSettings, if_pos jsx,
    Markup.isNode_document_iff present read, CommentBeside]
  cases shown : t.showLayerNames <;> simp [Markup.commentOf]

/-- The JSX of a design is one node, but for a comment in front of the only root. -/
theorem oneNode_of_build (built : Design.build s host roots = .ok forest) {t : Settings}
    (jsx : t.jsx = true) : OneNode t roots forest := by
  have present : forest ≠ [] := (Design.build_eq_ok built).2
  have written : ∀ attributes : Attributes,
      AttributesRead (Written attributes forest) attributes none forest :=
    fun attributes visit met a own => ⟨visit, met, a, own, rfl⟩
  constructor
  case html => exact isNode_html jsx present (written _)
  case tailwind => exact isNode_tailwind_iff jsx present (written _)
  case beside =>
    rintro ⟨shown, root, name, rfl, named⟩
    obtain ⟨cs, node, same⟩ := @Markup.exists_isNode_document _ _ true _
      (written (Tailwind.attributes t))
    refine ⟨name, cs, node, ?_⟩
    rw [Tailwind.code, Markup.Dialect.ofSettings, if_pos jsx, shown, same, Markup.commentOf,
      if_pos rfl, named]
    simp [Markup.commentLines, Markup.margin, Text.spaces]
  case html_read =>
    intro kept
    have families := fun inline => (Html.forall_family_of_build built
      (fun family => ¬Script.Breaks true family)).mpr (kept inline)
    refine isNode_html jsx present (attributesRead_of_build built fun parent n member => ?_)
    exact Html.isAttribute_of_mem (Design.isSnake_of_build built member)
      fun inline x text => families inline n member x text
  case tailwind_read =>
    intro plain
    have families := (Html.forall_family_of_build built
      (fun family => '"' ∉ family.toList)).mpr plain
    refine isNode_tailwind_iff jsx present (attributesRead_of_build built fun parent n member => ?_)
    exact Tailwind.isAttribute_of_mem (Tailwind.nodeCalled_of_build built n member)
      (families n member)

/-- Two frames whose names are shown. -/
theorem oneNode_of_build_frames :
    let card : Scene.Node := .mk { nodeType := "FRAME", name := "Card" } []
    let t := { Settings.defaults with jsx := true, showLayerNames := true }
    let forest := (Design.ofSelection t none [card, card] .empty).1
    Design.build t none [card, card] = .ok forest ∧ t.jsx = true ∧ OneNode t [card, card] forest := by
  intro card t forest
  have built : Design.build t none [card, card] = .ok forest := rfl
  exact ⟨built, rfl, oneNode_of_build built rfl⟩

/-- The name of a single frame is a comment beside its element, whatever an attribute is. -/
theorem not_isNode_card :
    let card : Scene.Node := .mk
      { id := "1:1", name := "Card", nodeType := "FRAME", width := 40.0, height := 20.0 } []
    let t := { Settings.defaults with framework := .tailwind, jsx := true, showLayerNames := true }
    let forest := (Design.ofSelection t none [card] .empty).1
    Design.build t none [card] = .ok forest ∧ t.jsx = true ∧
      Tailwind.code t forest = "\x7b/* Card */\x7d\n<div className=\"w-10 h-5\"></div>" ∧
      ∀ isAttribute, ¬IsNode isAttribute (Tailwind.code t forest).toList := by
  intro card t forest
  have code : Tailwind.code t forest = "\x7b/* Card */\x7d\n<div className=\"w-10 h-5\"></div>" := by
    decide +kernel
  refine ⟨rfl, rfl, code, fun isAttribute node => ?_⟩
  have first := node.head?_eq
  rw [code] at first
  cases first

end

end Handoff
