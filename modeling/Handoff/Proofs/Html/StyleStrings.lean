import Handoff.Proofs.Design.TextGroups
import Handoff.Proofs.Html.Quotes
import Handoff.Proofs.Text.Quoting

/-!
Declarations in script.

In JSX the declarations of a node are an object, and so are those of a text style.  Each value is
a string of the script, in which only quotes have a backslash (`Script.literal`).  So a value is
read from its string exactly if there is no backslash in it, and no line break if the reader minds
the ends of lines (`Script.keeps_iff`), and of all values only the family of a font can have one.

`styleStrings_of_jsx` says for every declaration of a design whether it is read as it was meant, and
for all of them together that they are just if no text shown has such a font.
-/

namespace Handoff

open Design (Node TextGroup)
open Text (Escape Quoting)

/-! ## Strings of a script -/

namespace Script

/-- What a script reads behind a backslash. -/
def escapeOf : List Char → Escape
  | [] => .unknown
  | c :: cs =>
    match Text.controls.lookup c with
    | some meant => .means (some meant) 0
    | none =>
      if c = 'x' then
        (Text.fixedCode? 2 cs).elim .unknown fun (code, length) => .ofCode code length
      else if c = 'u' then
        .unicode (fun cs => (Text.fixedCode? 4 cs).or (Text.bracedCode? cs.length cs)) cs
      else if c = '0' ∧ cs.head?.all (!·.isDigit) then .means (some '\x00') 0
      else if c.isDigit then .unknown
      else if c = '\r' ∧ cs.head? = some '\n' then .means none 1
      else if c ∈ ['\n', '\r', '\u2028', '\u2029'] then .means none 0
      else .means (some c) 0

/-- Strings in double quotes, as they are read by who minds the ends of lines and by who does
not. -/
def quoting (lines : Bool) : Quoting where
  quote := '"'
  opens := []
  ends := if lines then ['\n', '\r'] else []
  escape := escapeOf
  quote_ne := Text.doubleQuote_ne

/-- The string of a value. -/
def literal (value : String) : String := "\"" ++ Text.styleString value ++ "\""

/-- A value is read from its string, and nothing else, whatever follows. -/
def Keeps (lines : Bool) (value : String) : Prop :=
  ∀ rest, (quoting lines).read ((literal value).toList ++ rest) = .closed value.toList rest

/-- A text with a character that is not itself in a string. -/
def Breaks (lines : Bool) (s : String) : Prop :=
  ∃ c ∈ '\\' :: (quoting lines).ends, c ∈ s.toList

instance (lines : Bool) (s : String) : Decidable (Breaks lines s) :=
  List.decidableBEx (· ∈ s.toList) ('\\' :: (quoting lines).ends)

theorem writes_quoteEscape (lines : Bool) : (quoting lines).Writes Text.quoteEscape := by
  intro c
  unfold Text.quoteEscape
  split
  · exact .inr ⟨by cases lines <;> decide, '"', rfl, fun _ => rfl⟩
  · exact .inl rfl

/-- A value is kept exactly if no character of it breaks the string. -/
theorem keeps_iff (lines : Bool) (value : String) : Keeps lines value ↔ ¬ Breaks lines value := by
  have chars : (literal value).toList =
      (quoting lines).quote ::
        (value.toList.flatMap Text.quoteEscape ++ [(quoting lines).quote]) := by
    simp only [literal, Text.styleString, Text.escapeWith, String.toList_append,
      String.toList_ofList]
    rfl
  have bare : ∀ c ∈ (quoting lines).special,
      Text.quoteEscape c = [c] ↔ c ∈ '\\' :: (quoting lines).ends := by
    cases lines <;> exact List.all_iff_forall_prop.mp rfl
  have within : ∀ c ∈ '\\' :: (quoting lines).ends, c ∈ (quoting lines).special := by
    cases lines <;> exact List.all_iff_forall_prop.mp rfl
  have each : ∀ rest,
      (quoting lines).read ((literal value).toList ++ rest) = .closed value.toList rest ↔
        ¬ Breaks lines value := by
    intro rest
    rw [chars, List.cons_append, List.append_assoc, Quoting.read_quote, List.singleton_append,
      (writes_quoteEscape lines).scan_eq_closed_iff]
    constructor
    · rintro given ⟨c, breaks, member⟩
      exact given c member (within c breaks) ((bare c (within c breaks)).mpr breaks)
    · intro clean c member needs plain
      exact clean ⟨c, (bare c needs).mp plain, member⟩
  exact ⟨fun keeps => (each []).mp (keeps []), fun clean rest => (each rest).mpr clean⟩

theorem not_breaks_of_within {lines : Bool} {value : String}
    (value_chars : Text.Within Text.isValueChar value) : ¬ Breaks lines value := by
  have table : ∀ c ∈ '\\' :: (quoting lines).ends, Text.isValueChar c = false := by
    cases lines <;> exact List.all_iff_forall_prop.mp rfl
  rintro ⟨c, breaks, member⟩
  exact value_chars.not_mem (table c breaks) member

theorem breaks_family (lines : Bool) (name : String) :
    Breaks lines (Css.family name) ↔ Breaks lines name := by
  have apostrophe : '\'' ∉ '\\' :: (quoting lines).ends := by cases lines <;> decide
  refine exists_congr fun c => and_congr_right fun breaks => Css.mem_family ?_ name
  rintro rfl
  exact apostrophe breaks

end Script

/-! ## Declarations in strings -/

namespace Css

/-- Of the declarations of a typography only the family can break its string. -/
theorem breaks_of_mem_typography {lines : Bool} {t : Design.Typography} {d : Declaration}
    (member : d ∈ typography t) :
    Script.Breaks lines d.value ↔ d.property = "font-family" ∧ Script.Breaks lines t.family := by
  obtain ⟨letters, listed, declares⟩ := declares_typography t
  rw [listed] at member
  rcases List.mem_cons.mp member with rfl | among
  · rw [Script.breaks_family]
    exact (and_iff_right rfl).symm
  · have other := declares.property_ne (by decide : "font-family" ∉ letterProperties) d among
    simp only [Script.not_breaks_of_within (declares d among).2, other, false_and]

/-- Of the declarations of a node only the family of its font can break its string. -/
theorem breaks_of_mem_declarations {lines : Bool} {parent : Option Node} {n : Node}
    {d : Declaration} (member : d ∈ declarations parent n) :
    Script.Breaks lines d.value ↔
      d.property = "font-family" ∧
        ∃ t, n.box.style.text = some t ∧ Script.Breaks lines t.typography.family := by
  rcases mem_declarations member with ⟨listed, value⟩ | ⟨t, text, rfl⟩
  · have apart : "font-family" ∉ nodeProperties := by decide +kernel
    have other : d.property ≠ "font-family" := fun same => apart (same ▸ listed)
    simp only [Script.not_breaks_of_within value, other, false_and]
  · simp only [Script.breaks_family, text, Option.some.injEq, exists_eq_left', true_and]

end Css

/-! ## The declarations of a design -/

namespace Html

open Markup (Attribute Element attributesOf scriptProperty)

/-- The declarations of an element that carries them itself. -/
theorem style_mem_iff {t : Settings} {parent : Option Node} {n : Node}
    {ds : List Css.Declaration} :
    Attribute.style ds ∈ attributesOf (attributes t) parent n ↔
      t.inlineStyle = true ∧ ds ≠ [] ∧ ds = Css.declarations parent n := by
  have own : Attribute.style ds ∈ attributes t parent n ↔
      t.inlineStyle = true ∧ ds ≠ [] ∧ ds = Css.declarations parent n := by
    have layer : Attribute.style ds ∉ layerAttribute t n := by
      unfold layerAttribute
      split
      · simp
      · exact List.not_mem_nil
    rw [attributes, List.mem_append, or_iff_right layer, styleAttribute]
    split <;> rename_i own
    · rw [own]
      simp
    · cases t.inlineStyle <;> simp_all
  rw [attributesOf]
  split
  · rw [List.mem_cons, own]
    exact or_iff_right (by simp)
  · exact own

section

variable {s : Settings} {host : Option Scene.Node} {roots : List Scene.Node} {forest : List Node}

/-- The elements of a design keep the values of their declarations just if no font of a text shown
breaks its string. -/
theorem keeps_elements_iff (built : Design.build s host roots = .ok forest) (t : Settings)
    (lines : Bool) :
    (∀ e ∈ Element.listParts (elements t forest), ∀ ds, .style ds ∈ e.attributes →
        ∀ d ∈ ds, Script.Keeps lines d.value) ↔
      (t.inlineStyle = true → ∀ layer ∈ Scene.Node.layersAll (Scene.shownForest roots),
        layer.kind = .text → ¬ Script.Breaks lines layer.fontFamily) := by
  calc (∀ e ∈ Element.listParts (elements t forest), ∀ ds, .style ds ∈ e.attributes →
        ∀ d ∈ ds, Script.Keeps lines d.value)
    _ ↔ ∀ visit ∈ Node.preorderListUnder none forest, ∀ ds,
          .style ds ∈ attributesOf (attributes t) visit.1 visit.2 →
            ∀ d ∈ ds, Script.Keeps lines d.value := by
        have same := congrArg (fun lists => ∀ as ∈ lists, ∀ ds, Attribute.style ds ∈ as →
          ∀ d ∈ ds, Script.Keeps lines d.value)
          (Markup.map_attributes_of_build built (attributes t) false)
        simpa only [elements, List.forall_mem_map, eq_iff_iff] using same
    _ ↔ ∀ visit ∈ Node.preorderListUnder none forest, ∀ x,
          visit.2.box.style.text = some x → t.inlineStyle = true →
            ¬ Script.Breaks lines x.typography.family := by
        refine forall₂_congr fun visit member => ⟨fun kept x text inline => ?_,
          fun clean ds own d among => ?_⟩
        · have present := Css.family_mem_declarations visit.1 text
          have own := style_mem_iff.mpr ⟨inline, List.ne_nil_of_mem present, rfl⟩
          have keeps := kept _ own _ present
          rwa [Script.keeps_iff, Script.breaks_family] at keeps
        · obtain ⟨inline, -, rfl⟩ := style_mem_iff.mp own
          rw [Script.keeps_iff, Css.breaks_of_mem_declarations among]
          rintro ⟨-, x, text, breaks⟩
          exact clean x text inline breaks
    _ ↔ ∀ n ∈ Node.preorderList forest, ∀ x, n.box.style.text = some x →
          t.inlineStyle = true → ¬ Script.Breaks lines x.typography.family := by
        rw [← Node.map_snd_preorderListUnder forest none]
        simp only [List.forall_mem_map]
    _ ↔ ∀ layer ∈ Scene.Node.layersAll (Scene.shownForest roots), layer.kind = .text →
          t.inlineStyle = true → ¬ Script.Breaks lines layer.fontFamily :=
        forall_family_of_build built
          (fun family => t.inlineStyle = true → ¬ Script.Breaks lines family)
    _ ↔ (t.inlineStyle = true → ∀ layer ∈ Scene.Node.layersAll (Scene.shownForest roots),
          layer.kind = .text → ¬ Script.Breaks lines layer.fontFamily) :=
        ⟨fun all inline layer member text => all layer member text inline,
          fun all layer member text inline => all inline layer member text⟩

/-- The text styles of a design keep the values of their declarations just if no font of a text
shown breaks its string. -/
theorem keeps_groups_iff (built : Design.build s host roots = .ok forest) (lines : Bool) :
    (∀ g ∈ TextGroup.ofForest forest, ∀ d ∈ Css.typography g.typography,
        Script.Keeps lines d.value) ↔
      ∀ layer ∈ Scene.Node.layersAll (Scene.shownForest roots),
        layer.kind = .text → ¬ Script.Breaks lines layer.fontFamily := by
  calc (∀ g ∈ TextGroup.ofForest forest, ∀ d ∈ Css.typography g.typography,
        Script.Keeps lines d.value)
    _ ↔ ∀ g ∈ TextGroup.ofForest forest, ¬ Script.Breaks lines g.typography.family := by
        refine forall₂_congr fun g _ => ⟨fun kept => ?_, fun clean d among => ?_⟩
        · have keeps := kept ⟨"font-family", Css.family g.typography.family⟩ List.mem_cons_self
          rwa [Script.keeps_iff, Script.breaks_family] at keeps
        · rw [Script.keeps_iff, Css.breaks_of_mem_typography among]
          exact fun broken => clean broken.2
    _ ↔ ∀ n ∈ Node.preorderList forest, ∀ x, n.box.style.text = some x →
          ¬ Script.Breaks lines x.typography.family :=
        TextGroup.forall_family_ofForest (P := fun family => ¬ Script.Breaks lines family) forest
    _ ↔ ∀ layer ∈ Scene.Node.layersAll (Scene.shownForest roots), layer.kind = .text →
          ¬ Script.Breaks lines layer.fontFamily :=
        forall_family_of_build built (fun family => ¬ Script.Breaks lines family)

/-- How the declarations of a design stand in script. -/
structure StyleStrings (t : Settings) (roots : List Scene.Node) (forest : List Node) : Prop where
  entry : ∀ d, scriptProperty d = Css.scriptName d.property ++ ": " ++ Script.literal d.value
  style : ∀ ds, (Attribute.style ds).text (.ofSettings t) =
    "style=\x7b\x7b" ++ ", ".intercalate (ds.map scriptProperty) ++ "\x7d\x7d"
  attributes : (Element.listParts (elements t forest)).map Element.attributes =
    (Node.preorderListUnder none forest).map fun visit =>
      attributesOf (attributes t) visit.1 visit.2
  objects : textStyles t (TextGroup.ofForest forest) =
    "\n\n".intercalate ((TextGroup.ofForest forest).map fun g =>
      styleObject (Text.camel g.name) (Css.typography g.typography))
  /-- Every declaration of a node is kept but the family of a font that breaks its string. -/
  ofNode : ∀ (lines : Bool), ∀ visit ∈ Node.preorderListUnder none forest,
    ∀ d ∈ Css.declarations visit.1 visit.2, Script.Keeps lines d.value ↔
      ¬ (d.property = "font-family" ∧
        ∃ x, visit.2.box.style.text = some x ∧ Script.Breaks lines x.typography.family)
  /-- Likewise for every declaration of a text style. -/
  ofGroup : ∀ (lines : Bool), ∀ g ∈ TextGroup.ofForest forest,
    ∀ d ∈ Css.typography g.typography, Script.Keeps lines d.value ↔
      ¬ (d.property = "font-family" ∧ Script.Breaks lines g.typography.family)
  /-- All elements keep their declarations just if no font of a text shown breaks its string. -/
  ofElements : ∀ lines : Bool,
    (∀ e ∈ Element.listParts (elements t forest), ∀ ds, .style ds ∈ e.attributes →
        ∀ d ∈ ds, Script.Keeps lines d.value) ↔
      (t.inlineStyle = true → ∀ layer ∈ Scene.Node.layersAll (Scene.shownForest roots),
        layer.kind = .text → ¬ Script.Breaks lines layer.fontFamily)
  /-- So do all text styles. -/
  ofGroups : ∀ lines : Bool,
    (∀ g ∈ TextGroup.ofForest forest, ∀ d ∈ Css.typography g.typography,
        Script.Keeps lines d.value) ↔
      ∀ layer ∈ Scene.Node.layersAll (Scene.shownForest roots),
        layer.kind = .text → ¬ Script.Breaks lines layer.fontFamily

/-- A value in script is read as it was meant, but for the family of a font with a backslash in its
name, or a line break if the reader minds the ends of lines. -/
theorem styleStrings_of_jsx (built : Design.build s host roots = .ok forest) {t : Settings}
    (jsx : t.jsx = true) : StyleStrings t roots forest := by
  constructor
  case entry =>
    intro d
    have opening : ": \"" = ": " ++ "\"" := by decide
    rw [scriptProperty, Script.literal, opening]
    simp only [String.append_assoc]
  case style =>
    intro ds
    rw [Markup.Dialect.ofSettings, if_pos jsx]
    rfl
  case attributes => exact Markup.map_attributes_of_build built (attributes t) false
  case objects => rw [textStyles, if_pos jsx]
  case ofNode =>
    intro lines visit _ d member
    rw [Script.keeps_iff, Css.breaks_of_mem_declarations member]
  case ofGroup =>
    intro lines g _ d member
    rw [Script.keeps_iff, Css.breaks_of_mem_typography member]
  case ofElements => exact keeps_elements_iff built t
  case ofGroups => exact keeps_groups_iff built

/-- A text in a font with quotes in its name, which are kept. -/
theorem styleStrings_of_jsx_quotes :
    let text : Scene.Node := .mk
      { id := "1:1", nodeType := "TEXT", characters := some "Hi",
        fontName := some { family := "A \"B\"" } } []
    let t := { Settings.defaults with jsx := true }
    let forest := (Design.ofSelection t none [text] .empty).1
    Design.build t none [text] = .ok forest ∧ t.jsx = true ∧
      ∀ e ∈ Element.listParts (elements t forest), ∀ ds, .style ds ∈ e.attributes →
        ∀ d ∈ ds, Script.Keeps true d.value := by
  intro text t forest
  have built : Design.build t none [text] = .ok forest := rfl
  refine ⟨built, rfl, ((styleStrings_of_jsx built rfl).ofElements true).mpr fun _ => ?_⟩
  have shown : Scene.Node.layersAll (Scene.shownForest [text]) = [text.layer] := by
    rw [← Outline.scenes_ofRoots]
    rfl
  rw [shown]
  decide

/-- The backslash in the name of this font is lost, in the element and in the text style. -/
theorem not_keeps_backslash :
    let text : Scene.Node := .mk
      { id := "1:1", nodeType := "TEXT", characters := some "Hi",
        fontName := some { family := "A\\B" } } []
    let t := { Settings.defaults with jsx := true }
    let forest := (Design.ofSelection t none [text] .empty).1
    Design.build t none [text] = .ok forest ∧
      code t forest =
        "<div style=\x7b\x7bwidth: \"0px\", height: \"0px\", fontFamily: \"A\\B\", " ++
          "fontSize: \"12px\", fontWeight: \"400\"\x7d\x7d>Hi</div>" ∧
      textStyles t (TextGroup.ofForest forest) =
        "const aB12Normal = \x7b\n  fontFamily: \"A\\B\",\n  fontSize: \"12px\",\n" ++
          "  fontWeight: \"400\",\n\x7d;" ∧
      (∀ lines, (Script.quoting lines).read "\"A\\B\"".toList = .closed "AB".toList []) ∧
      ∀ lines, ¬ Script.Keeps lines "A\\B" := by
  intro text t forest
  refine ⟨rfl, by decide +kernel, by decide +kernel, by decide, fun lines => ?_⟩
  rw [Script.keeps_iff]
  cases lines <;> decide

end

end Html

end Handoff
