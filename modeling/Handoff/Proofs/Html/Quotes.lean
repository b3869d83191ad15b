import Handoff.Proofs.Css.Properties
import Handoff.Proofs.Design.Wording
import Handoff.Proofs.Html.Classes
import Handoff.Proofs.Text.Marks

/-!
Quotes inside the attributes of HTML.

The value of an attribute stands between double quotes, and whoever reads it takes the first quote
behind the opening one for its end (`Markup.readValue`).  The address of an image, the name of a
layer and the declarations of a node have no quote in them, but for one thing: a declaration of a
font has the name of its family as it is in the scene, where the name of a layer would be escaped.

`values_of_build` says for every attribute of a design whether it is read as it was meant, and for
all of them together that they are just if no text shown has a font with a quote in its name.
-/

namespace Handoff

open Design (Node)
open Text (Within isValueChar)

/-! ## Attributes as they are read -/

namespace Markup

/-- The name of an attribute in HTML. -/
def Attribute.name : Attribute → String
  | source _ => "src"
  | layer _ => "data-layer"
  | style _ => "style"
  | classes _ => "class"

/-- What is written between the quotes of an attribute in HTML. -/
def Attribute.value : Attribute → String
  | source url => url
  | layer name => Text.html name
  | style declarations => "; ".intercalate (declarations.map (·.text))
  | classes names => " ".intercalate names

theorem Attribute.text_html (a : Attribute) :
    a.text .html = a.name ++ "=\"" ++ a.value ++ "\"" := by
  have source : "src" ++ "=\"" = "src=\"" := by decide
  have layer : "data-layer" ++ "=\"" = "data-layer=\"" := by decide
  have style : "style" ++ "=\"" = "style=\"" := by decide
  cases a
  · rw [name, source]
    rfl
  · rw [name, layer]
    rfl
  · rw [name, style]
    rfl
  · rfl

/-- What is read as the value of an attribute: all that stands behind the first quote, up to the
next. -/
def readValue (text : String) : String :=
  String.ofList (((text.toList.dropWhile (· != '"')).drop 1).takeWhile (· != '"'))

/-- A value is read as it was written if there is no quote in it. -/
theorem readValue_text_iff (a : Attribute) :
    readValue (a.text .html) = a.value ↔ '"' ∉ a.value.toList := by
  have front : ∀ c ∈ (a.name ++ "=").toList, (c != '"') = true := by
    have table : ∀ name ∈ ["src", "data-layer", "style", "class"],
        Text.Within (· != '"') (name ++ "=") := by decide
    refine table a.name ?_
    cases a <;> simp [Attribute.name]
  have chars : (a.text .html).toList =
      (a.name ++ "=").toList ++ '"' :: (a.value.toList ++ ['"']) := by
    have opening : "=\"" = "=" ++ "\"" := by decide
    rw [a.text_html, opening]
    simp only [String.toList_append, List.append_assoc]
    rfl
  have behind : ((a.text .html).toList.dropWhile (· != '"')).drop 1 = a.value.toList ++ ['"'] := by
    rw [chars, List.dropWhile_append_of_pos front]
    rfl
  rw [readValue, behind]
  constructor
  · intro read member
    rw [← read, String.toList_ofList] at member
    have kept := List.all_eq_true.mp List.all_takeWhile _ member
    exact absurd rfl (bne_iff_ne.mp kept)
  · intro none
    have own : ∀ c ∈ a.value.toList, (c != '"') = true := by
      intro c member
      exact bne_iff_ne.mpr fun same => none (same ▸ member)
    rw [List.takeWhile_append_of_pos own, List.takeWhile_cons_of_neg (by decide),
      List.append_nil, String.ofList_toList]

end Markup

/-! ## Where a quote can come from -/

theorem Text.not_mem_htmlEscape {c : Char} (ends : c ∈ ['<', '>', '"']) (d : Char) :
    c ∉ htmlEscape d := by
  simp only [List.mem_cons, List.not_mem_nil, or_false] at ends
  intro inside
  unfold htmlEscape at inside
  rcases ends with rfl | rfl | rfl
  all_goals split at inside <;> simp_all [eq_comm]

/-- Markup text has no character in it that would end it. -/
theorem Text.not_mem_html {c : Char} (ends : c ∈ ['<', '>', '"']) (s : String) :
    c ∉ (html s).toList :=
  not_mem_escapeWith (not_mem_htmlEscape ends) s

namespace Css

/-- There is a quote in the declarations of a node only if its font has one in its name. -/
theorem quote_mem_declarations (parent : Option Node) (n : Node) :
    (∃ d ∈ declarations parent n, '"' ∈ d.text.toList) ↔
      ∃ t, n.box.style.text = some t ∧ '"' ∈ t.typography.family.toList := by
  have spelled : ∀ name : String,
      '"' ∈ (⟨"font-family", family name⟩ : Declaration).text.toList ↔ '"' ∈ name.toList := by
    intro name
    have front : '"' ∉ ("font-family" ++ ": ").toList := by decide
    rw [Declaration.text, String.toList_append, List.mem_append, mem_family (by decide)]
    simp only [front, false_or]
  constructor
  · rintro ⟨d, member, quote⟩
    rcases mem_declarations member with ⟨listed, value⟩ | ⟨t, text, rfl⟩
    · have table : ∀ property ∈ nodeProperties, '"' ∉ (property ++ ": ").toList := by
        decide +kernel
      rw [Declaration.text, String.toList_append, List.mem_append] at quote
      exact (quote.elim (table _ listed) (value.not_mem (by decide))).elim
    · exact ⟨t, text, (spelled _).mp quote⟩
  · rintro ⟨t, text, quote⟩
    exact ⟨_, family_mem_declarations parent text, (spelled _).mpr quote⟩

end Css

/-! ## The attributes of a design -/

namespace Html

open Markup (Attribute Element attributesOf readValue)

/-- The settings of HTML with the declarations on the elements. -/
def styled (s : Settings) : Settings := { s with inlineStyle := true, jsx := false }

/-- Of the attributes of a node only its declarations can have a quote in them. -/
theorem quote_mem_value {s : Settings} {parent : Option Node} {n : Node} {a : Attribute}
    (member : a ∈ attributesOf (attributes (styled s)) parent n) :
    '"' ∈ a.value.toList ↔
      a = .style (Css.declarations parent n) ∧
        ∃ t, n.box.style.text = some t ∧ '"' ∈ t.typography.family.toList := by
  have own : a = .source n.box.placeholder ∨ (∃ name, a = .layer name) ∨
      a = .style (Css.declarations parent n) := by
    have others : a ∈ attributes (styled s) parent n →
        (∃ name, a = .layer name) ∨ a = .style (Css.declarations parent n) := by
      intro member
      rw [attributes, List.mem_append] at member
      rcases member with layer | style
      · unfold layerAttribute at layer
        split at layer
        · obtain ⟨name, -, rfl⟩ := List.mem_map.mp layer
          exact .inl ⟨name, rfl⟩
        · cases layer
      · unfold styleAttribute at style
        split at style
        · cases style
        · exact .inr (List.mem_singleton.mp style)
    rw [attributesOf] at member
    split at member
    · exact (List.mem_cons.mp member).imp_right others
    · exact .inr (others member)
  rcases own with rfl | ⟨name, rfl⟩ | rfl
  · have address : '"' ∉ n.box.placeholder.toList :=
      (Css.within_placeholder n.box).not_mem (by decide)
    simp only [Attribute.value, address, reduceCtorEq, false_and]
  · have escaped : '"' ∉ (Text.html name).toList := Text.not_mem_html (by decide) name
    simp only [Attribute.value, escaped, reduceCtorEq, false_and]
  · rw [Attribute.value, Text.mem_toList_intercalate (by decide),
      ← Css.quote_mem_declarations parent n]
    simp only [List.mem_map, exists_exists_and_eq_and, true_and]

theorem style_mem_attributesOf (s : Settings) {parent : Option Node} {n : Node}
    (present : Css.declarations parent n ≠ []) :
    .style (Css.declarations parent n) ∈ attributesOf (attributes (styled s)) parent n := by
  have own : .style (Css.declarations parent n) ∈ attributes (styled s) parent n := by
    rw [attributes, styleAttribute]
    refine List.mem_append_right _ ?_
    split
    · contradiction
    · exact List.mem_singleton_self _
  rw [attributesOf]
  split
  · exact List.mem_cons_of_mem _ own
  · exact own

section

variable {s : Settings} {host : Option Scene.Node} {roots : List Scene.Node} {forest : List Node}

/-- The families of the texts of a design are those of the texts shown. -/
theorem families_of_build (built : Design.build s host roots = .ok forest) :
    (Node.preorderList forest).map (fun n => n.box.style.text.map (·.typography.family)) =
      (Scene.Node.layersAll (Scene.shownForest roots)).map fun layer =>
        if layer.kind = .text then some layer.fontFamily else none := by
  have texts := congrArg (List.map (Option.map fun t => t.typography.family))
    (Design.texts_of_build built)
  rw [List.map_map, List.map_map] at texts
  refine texts.trans (List.map_congr_left fun layer _ => ?_)
  dsimp only [Function.comp_apply]
  split <;> rfl

/-- What holds of the families of a design holds of those of the texts shown. -/
theorem forall_family_of_build (built : Design.build s host roots = .ok forest)
    (P : String → Prop) :
    (∀ n ∈ Node.preorderList forest, ∀ x, n.box.style.text = some x → P x.typography.family) ↔
      ∀ layer ∈ Scene.Node.layersAll (Scene.shownForest roots),
        layer.kind = .text → P layer.fontFamily :=
  Design.forall_text_of_build built fun t => P t.typography.family

/-- Every attribute of a design is read as the value that was written, but for the declarations of
a text whose font has a quote in its name: they end at that quote.  So all are read as they were
meant exactly if no text shown has such a font. -/
theorem values_of_build (built : Design.build s host roots = .ok forest) (t : Settings) :
    let written := Element.listParts (elements (styled t) forest)
    code (styled t) forest = Markup.document .html (elements (styled t) forest) ∧
      written.map Element.attributes =
        (Node.preorderListUnder none forest).map (fun visit =>
          attributesOf (attributes (styled t)) visit.1 visit.2) ∧
      (∀ visit ∈ Node.preorderListUnder none forest,
        ∀ a ∈ attributesOf (attributes (styled t)) visit.1 visit.2,
          a.text .html = a.name ++ "=\"" ++ a.value ++ "\"" ∧
            (readValue (a.text .html) = a.value ↔
              ¬ (a = .style (Css.declarations visit.1 visit.2) ∧
                ∃ x, visit.2.box.style.text = some x ∧ '"' ∈ x.typography.family.toList))) ∧
      ((∀ e ∈ written, ∀ a ∈ e.attributes, readValue (a.text .html) = a.value) ↔
        ∀ layer ∈ Scene.Node.layersAll (Scene.shownForest roots),
          layer.kind = .text → '"' ∉ layer.fontFamily.toList) := by
  intro written
  have listed : written.map Element.attributes =
      (Node.preorderListUnder none forest).map fun visit =>
        attributesOf (attributes (styled t)) visit.1 visit.2 :=
    Markup.map_attributes_of_build built _ false
  have each : ∀ visit ∈ Node.preorderListUnder none forest,
      ∀ a ∈ attributesOf (attributes (styled t)) visit.1 visit.2,
        (readValue (a.text .html) = a.value ↔
          ¬ (a = .style (Css.declarations visit.1 visit.2) ∧
            ∃ x, visit.2.box.style.text = some x ∧ '"' ∈ x.typography.family.toList)) := by
    intro visit _ a member
    rw [Markup.readValue_text_iff, quote_mem_value member]
  refine ⟨rfl, listed, fun visit member a own => ⟨a.text_html, each visit member a own⟩, ?_⟩
  calc (∀ e ∈ written, ∀ a ∈ e.attributes, readValue (a.text .html) = a.value)
    _ ↔ ∀ visit ∈ Node.preorderListUnder none forest,
          ∀ a ∈ attributesOf (attributes (styled t)) visit.1 visit.2,
            readValue (a.text .html) = a.value := by
        have same := congrArg
          (fun lists => ∀ as ∈ lists, ∀ a ∈ as, readValue (a.text .html) = a.value) listed
        simpa only [List.forall_mem_map, eq_iff_iff] using same
    _ ↔ ∀ visit ∈ Node.preorderListUnder none forest, ∀ x,
          visit.2.box.style.text = some x → '"' ∉ x.typography.family.toList := by
        refine forall₂_congr fun visit member => ⟨fun read x text quote => ?_, fun plain a own => ?_⟩
        · have found := (Css.quote_mem_declarations visit.1 visit.2).mpr ⟨x, text, quote⟩
          obtain ⟨d, inside, -⟩ := found
          have own := style_mem_attributesOf t (List.ne_nil_of_mem inside)
          exact (each visit member _ own).mp (read _ own) ⟨rfl, x, text, quote⟩
        · refine (each visit member a own).mpr ?_
          rintro ⟨-, x, text, quote⟩
          exact plain x text quote
    _ ↔ ∀ n ∈ Node.preorderList forest, ∀ x,
          n.box.style.text = some x → '"' ∉ x.typography.family.toList := by
        rw [← Node.map_snd_preorderListUnder forest none]
        simp only [List.forall_mem_map]
    _ ↔ ∀ layer ∈ Scene.Node.layersAll (Scene.shownForest roots),
          layer.kind = .text → '"' ∉ layer.fontFamily.toList :=
        forall_family_of_build built (fun family => '"' ∉ family.toList)

/-- A frame whose name is full of quotes, with a text in a font whose name has none. -/
theorem values_of_build_label :
    let label : Scene.Node := .mk
      { id := "1:2", nodeType := "TEXT", characters := some "\"Hi\"",
        fontName := some { family := "Fira Sans" } } []
    let roots : List Scene.Node := [.mk { nodeType := "FRAME", name := "\"Card\"" } [label]]
    let forest := (Design.ofSelection .defaults none roots .empty).1
    let t := { Settings.defaults with showLayerNames := true }
    Design.build .defaults none roots = .ok forest ∧
      ∀ e ∈ Element.listParts (elements (styled t) forest), ∀ a ∈ e.attributes,
        readValue (a.text .html) = a.value := by
  intro label roots forest t
  have built : Design.build .defaults none roots = .ok forest := rfl
  refine ⟨built, (values_of_build built t).2.2.2.mpr ?_⟩
  have shown : Scene.Node.layersAll (Scene.shownForest roots) =
      [(Scene.Node.mk { nodeType := "FRAME", name := "\"Card\"" } [label]).layer, label.layer] := by
    rw [← Outline.scenes_ofRoots]
    rfl
  rw [shown]
  decide +kernel

/-- In the name of this font there is a quote, and behind it what is read as an attribute of its
own. -/
theorem not_values_plain :
    let text : Scene.Node := .mk
      { id := "1:1", nodeType := "TEXT", characters := some "Hi",
        fontName := some { family := "A\" onclick=\"x" } } []
    let forest := (Design.ofSelection .defaults none [text] .empty).1
    let written := (Element.listParts (elements (styled .defaults) forest)).flatMap (·.attributes)
    Design.build .defaults none [text] = .ok forest ∧
      code (styled .defaults) forest =
        "<div style=\"width: 0px; height: 0px; font-family: 'A\" onclick=\"x'; font-size: 12px; " ++
          "font-weight: 400\">Hi</div>" ∧
      (written.filter (·.value.toList.contains '"')).map
          (fun a => (a.name, readValue (a.text .html))) =
        [("style", "width: 0px; height: 0px; font-family: 'A")] := by
  intro text forest written
  exact ⟨rfl, by decide +kernel, by decide +kernel⟩

end

end Html

end Handoff
