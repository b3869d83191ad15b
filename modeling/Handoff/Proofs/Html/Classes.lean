import Handoff.Proofs.Css.StyleSheet
import Handoff.Proofs.Design.SnakeNames
import Handoff.Proofs.Markup.Structure
import Mathlib.Data.List.Nodup

/-!
Two ways to carry the declarations of an element.

The code of a forest has either the declarations on its elements or classes with a rule each
in a style sheet.  `Element.exchange` puts other attributes in the place of those of an element
and of all below it.  With it the two ways are compared: without the attributes that carry a
style the elements are the same, and with the declarations of its rule put in the place of
every class the elements with classes become those without.

A rule is found under its class because kebab case keeps the names of a design apart
(`nodup_classNames`).  It can be read off the text of the style sheet too, if no family of a font
breaks a line there (`named_rules`, `oneLine_rules_iff`).

The main statement is `interchangeable_of_build`.
-/

namespace Handoff

open Design (Node)

/-! ## Other attributes -/

namespace Markup

mutual

/-- An element with other attributes in the place of each of its own and of those below it. -/
def Element.exchange (f : Attribute → List Attribute) : Element → Element
  | .image comment attributes => .image comment (attributes.flatMap f)
  | .text comment attributes characters => .text comment (attributes.flatMap f) characters
  | .box comment attributes children =>
    .box comment (attributes.flatMap f) (Element.exchangeAll f children)

/-- Elements with other attributes in the place of each. -/
def Element.exchangeAll (f : Attribute → List Attribute) : List Element → List Element
  | [] => []
  | e :: rest => e.exchange f :: Element.exchangeAll f rest

end

/-- To exchange the attributes of elements is to build them with others, if that holds of what
every single node is given. -/
theorem exchangeAll_elementsOf {f : Attribute → List Attribute} {given wanted : Attributes}
    (source : ∀ url, f (.source url) = [.source url]) (comments : Bool) (forest : List Node) :
    ∀ parent : Option Node,
      (∀ visit ∈ visitsOfList parent forest,
        (given visit.1 visit.2).flatMap f = wanted visit.1 visit.2) →
      Element.exchangeAll f (elementsOf given comments parent forest) =
        elementsOf wanted comments parent forest := by
  induction forest using Node.forestInduction with
  | nil =>
      intro parent _
      rw [elementsOf, elementsOf, Element.exchangeAll]
  | cons box children rest below after =>
      intro parent each
      rw [visitsOfList, visitsOf, List.forall_mem_append, List.forall_mem_cons] at each
      obtain ⟨⟨own, inner⟩, others⟩ := each
      have first : (elementOf given comments parent (.mk box children)).exchange f =
          elementOf wanted comments parent (.mk box children) := by
        rw [elementOf, elementOf]
        by_cases image : box.kind = .image
        · simp only [image, if_true, Element.exchange, List.flatMap_cons, source, own,
            List.singleton_append]
        · simp only [image, if_false]
          cases characters : box.characters? with
          | some text => simp only [Element.exchange, own]
          | none =>
              have unset : box.style.text = none := Option.map_eq_none_iff.mp characters
              have branch : isLeaf box = false := by
                rw [isLeaf, unset, Option.isSome_none, Bool.or_false]
                exact beq_false_of_ne image
              rw [branch, if_neg Bool.false_ne_true] at inner
              simp only [Element.exchange, own, below _ inner]
      rw [elementsOf, elementsOf, Element.exchangeAll, first, after parent others]

/-- The classes that an attribute names. -/
def Attribute.classNames : Attribute → List String
  | .classes names => names
  | _ => []

/-- All classes that elements name, in the order of the elements. -/
def classNames (elements : List Element) : List String :=
  (Element.listParts elements).flatMap fun e => e.attributes.flatMap Attribute.classNames

/-- An attribute, unless it carries declarations or classes. -/
def Attribute.unstyled : Attribute → List Attribute
  | .style _ | .classes _ => []
  | a => [a]

/-- The declarations of the rule of a class. -/
def declarationsOf (rules : List Css.Rule) (className : String) : List Css.Declaration :=
  ((rules.find? (·.className == className)).map (·.declarations)).getD []

/-- An attribute with the declarations of their rules in the place of classes. -/
def Attribute.inlined (rules : List Css.Rule) : Attribute → List Attribute
  | .classes names => [.style (names.flatMap (declarationsOf rules))]
  | a => [a]

theorem declarationsOf_className {rules : List Css.Rule}
    (distinct : (rules.map (·.className)).Nodup) {rule : Css.Rule} (member : rule ∈ rules) :
    declarationsOf rules rule.className = rule.declarations := by
  rw [declarationsOf]
  cases found : rules.find? (·.className == rule.className) with
  | none => exact absurd (beq_self_eq_true _) (List.find?_eq_none.mp found rule member)
  | some other =>
      have same : other.className = rule.className := by
        have passes := List.find?_some found
        exact beq_iff_eq.mp passes
      rw [List.inj_on_of_nodup_map distinct (List.mem_of_find?_eq_some found) member same]
      rfl

end Markup

/-! ## Classes and rules -/

namespace Html

open Markup (Attribute Element)

/-- The settings with the declarations in a style sheet. -/
def classed (s : Settings) : Settings := { s with inlineStyle := false }

/-- The settings with the declarations on the elements. -/
def inlined (s : Settings) : Settings := { s with inlineStyle := true }

/-- The elements of a forest. -/
def elements (s : Settings) (forest : List Node) : List Element :=
  Markup.elementsOf (attributes s) false none forest

section

variable {s : Settings} {parent : Option Node} {n : Node}

/-- A node with a declaration has a rule. -/
theorem rule?_of_mem {d : Css.Declaration} (present : d ∈ Css.declarations parent n) :
    rule? parent n = some ⟨className n, Css.declarations parent n⟩ := by
  unfold rule?
  split
  · rename_i none
    rw [none] at present
    cases present
  · rfl

theorem eq_of_rule? {rule : Css.Rule} (own : rule? parent n = some rule) :
    rule = ⟨className n, Css.declarations parent n⟩ := by
  unfold rule? at own
  split at own
  · cases own
  · rw [← Option.some.inj own]

/-- A node names the class of its rule, and none if it has no rule. -/
theorem classNames_attributes :
    (attributes (classed s) parent n).flatMap Attribute.classNames =
      ((rule? parent n).map (·.className)).toList := by
  have layer : (layerAttribute (classed s) n).flatMap Attribute.classNames = [] := by
    unfold layerAttribute
    split
    · cases n.box.name <;> rfl
    · rfl
  rw [attributes, List.flatMap_append, layer, List.nil_append, styleAttribute, rule?]
  split <;> rfl

/-- But for declarations and classes a node has the same attributes either way. -/
theorem unstyled_attributes (s : Settings) (parent : Option Node) (n : Node) :
    (attributes s parent n).flatMap Attribute.unstyled = layerAttribute s n := by
  have layer : (layerAttribute s n).flatMap Attribute.unstyled = layerAttribute s n := by
    unfold layerAttribute
    split
    · cases n.box.name <;> rfl
    · rfl
  rw [attributes, List.flatMap_append, layer, styleAttribute]
  split
  · exact List.append_nil _
  · split <;> exact List.append_nil _

/-- With the declarations of its rule in the place of its class a node has the attributes that
it has without classes. -/
theorem inlined_attributes {rules : List Css.Rule}
    (found : ∀ rule, rule? parent n = some rule →
      Markup.declarationsOf rules rule.className = rule.declarations) :
    (attributes (classed s) parent n).flatMap (Attribute.inlined rules) =
      attributes (inlined s) parent n := by
  have layer : (layerAttribute (classed s) n).flatMap (Attribute.inlined rules) =
      layerAttribute (inlined s) n := by
    show (layerAttribute s n).flatMap (Attribute.inlined rules) = layerAttribute s n
    unfold layerAttribute
    split
    · cases n.box.name <;> rfl
    · rfl
  rw [attributes, attributes, List.flatMap_append, layer, styleAttribute, styleAttribute]
  unfold rule? at found
  cases declarations : Css.declarations parent n with
  | nil => rfl
  | cons d ds =>
      rw [declarations] at found
      have own := found _ rfl
      simp only [classed, inlined, Bool.false_eq_true, if_false, if_true, List.flatMap_cons,
        List.flatMap_nil, Attribute.inlined, List.append_nil, own]

end

section

variable {s : Settings} {host : Option Scene.Node} {roots : List Scene.Node} {forest : List Node}

/-- No two nodes of a design have one class. -/
theorem nodup_classNames (built : Design.build s host roots = .ok forest) :
    ((Node.preorderList forest).map className).Nodup := by
  have names := Design.nodup_uniqueNames built
  rw [List.nodup_iff_pairwise_ne, List.pairwise_map] at names ⊢
  refine names.imp_of_mem fun {n m} first second differ same => differ ?_
  exact (Text.kebab_inj (Design.isSnake_of_build built first)
    (Design.isSnake_of_build built second)).mp same

/-- The rules of a design are those of its nodes in preorder. -/
theorem rules_of_build (built : Design.build s host roots = .ok forest) :
    rules forest =
      (Node.preorderListUnder none forest).filterMap fun visit => rule? visit.1 visit.2 := by
  rw [rules, Markup.visits_of_build built]

theorem map_className_rules (built : Design.build s host roots = .ok forest) :
    (rules forest).map (·.className) = (Node.preorderListUnder none forest).flatMap fun visit =>
      ((rule? visit.1 visit.2).map (·.className)).toList := by
  rw [rules_of_build built, List.map_filterMap, List.filterMap_eq_flatMap_toList]

/-- No two rules of a design are of one class. -/
theorem nodup_rules (built : Design.build s host roots = .ok forest) :
    ((rules forest).map (·.className)).Nodup := by
  have own : ∀ visit : Option Node × Node,
      (((rule? visit.1 visit.2).map (·.className)).toList).Sublist [className visit.2] := by
    intro visit
    cases rule : rule? visit.1 visit.2 with
    | none => exact List.nil_sublist _
    | some r =>
        rw [Option.map_some, eq_of_rule? rule]
        exact List.Sublist.refl _
  have listed : (Node.preorderListUnder none forest).flatMap (fun visit => [className visit.2]) =
      (Node.preorderList forest).map className := by
    rw [← Node.map_snd_preorderListUnder forest none, List.map_map, List.map_eq_flatMap]
    rfl
  rw [map_className_rules built]
  exact (flatMap_sublist_flatMap own _).nodup (listed ▸ nodup_classNames built)

/-- The class of a rule is a name, and so are the properties it sets. -/
theorem named_rules (built : Design.build s host roots = .ok forest) :
    ∀ r ∈ rules forest, r.Named := by
  intro r member
  rw [rules_of_build built] at member
  obtain ⟨visit, among, own⟩ := List.mem_filterMap.mp member
  rw [eq_of_rule? own]
  have snake := Design.isSnake_of_build built (Node.mem_of_mem_preorderListUnder among)
  exact ⟨Text.isName_kebab snake, fun d => Css.isName_property⟩

/-- Of the values in the rules only the families of fonts can break a line. -/
theorem oneLine_rules_iff (built : Design.build s host roots = .ok forest) :
    (∀ r ∈ rules forest, ∀ d ∈ r.declarations, Text.OneLine d.value) ↔
      ∀ n ∈ Node.preorderList forest, ∀ x,
        n.box.style.text = some x → Text.OneLine x.typography.family := by
  calc (∀ r ∈ rules forest, ∀ d ∈ r.declarations, Text.OneLine d.value)
    _ ↔ ∀ visit ∈ Node.preorderListUnder none forest,
          ∀ d ∈ Css.declarations visit.1 visit.2, Text.OneLine d.value := by
        rw [rules_of_build built]
        constructor
        · intro lines visit among d present
          have own := rule?_of_mem present
          exact lines _ (List.mem_filterMap.mpr ⟨visit, among, own⟩) d present
        · intro lines r member
          obtain ⟨visit, among, own⟩ := List.mem_filterMap.mp member
          rw [eq_of_rule? own]
          exact lines visit among
    _ ↔ ∀ visit ∈ Node.preorderListUnder none forest, ∀ x,
          visit.2.box.style.text = some x → Text.OneLine x.typography.family :=
        forall₂_congr fun visit _ => Css.oneLine_declarations_iff visit.1 visit.2
    _ ↔ ∀ n ∈ Node.preorderList forest, ∀ x,
          n.box.style.text = some x → Text.OneLine x.typography.family := by
        rw [← Node.map_snd_preorderListUnder forest none]
        simp only [List.forall_mem_map]

/-- The classes in the code of a design are those of the rules, one after another. -/
theorem classNames_of_build (built : Design.build s host roots = .ok forest) (t : Settings) :
    Markup.classNames (elements (classed t) forest) = (rules forest).map (·.className) := by
  have own : ∀ visit : Option Node × Node,
      (Markup.attributesOf (attributes (classed t)) visit.1 visit.2).flatMap
          Attribute.classNames =
        ((rule? visit.1 visit.2).map (·.className)).toList := by
    intro visit
    rw [Markup.attributesOf]
    split
    · rw [List.flatMap_cons, classNames_attributes]
      rfl
    · exact classNames_attributes
  have listed : Markup.classNames (elements (classed t) forest) =
      ((Element.listParts (elements (classed t) forest)).map Element.attributes).flatMap
        (·.flatMap Attribute.classNames) := by
    rw [Markup.classNames, List.flatMap_map]
  rw [listed, elements, Markup.map_attributes_of_build built, List.flatMap_map,
    map_className_rules built]
  exact congrArg (List.flatMap · _) (funext own)

/-- The code of a forest with classes and the code with declarations in their place. -/
structure Interchangeable (t : Settings) (forest : List Node) : Prop where
  /-- With classes, their rules are in a style sheet. -/
  classMode : artifacts (classed t) forest =
    [⟨"Code", Markup.document (.ofSettings t) (elements (classed t) forest), .html⟩,
      ⟨"Styles", Css.styleSheet (rules forest), .css⟩]
  /-- The declarations of the rules take the place of the classes. -/
  inlineMode : artifacts (inlined t) forest =
    [⟨"Code", Markup.document (.ofSettings t)
      (Element.exchangeAll (Attribute.inlined (rules forest)) (elements (classed t) forest)),
      .html⟩]
  unstyled : Element.exchangeAll Attribute.unstyled (elements (classed t) forest) =
    Element.exchangeAll Attribute.unstyled (elements (inlined t) forest)
  /-- Classes and rules correspond to each other in the order of the nodes. -/
  classNames : Markup.classNames (elements (classed t) forest) =
    (rules forest).map (·.className)
  preorder : rules forest =
    (Node.preorderListUnder none forest).filterMap fun visit => rule? visit.1 visit.2
  distinct : ((rules forest).map (·.className)).Nodup
  /-- Not even nodes without a rule would share a class. -/
  apart : ((Node.preorderList forest).map className).Nodup
  /-- The rules can be read off their style sheet, classes and declarations in order, unless there
  is a line feed in the family of a font. -/
  read : Css.readSheet (Css.styleSheet (rules forest)) = rules forest ↔
    ∀ n ∈ Node.preorderList forest, ∀ x,
      n.box.style.text = some x → Text.OneLine x.typography.family

/-- The code of every design with classes becomes the code without when the declarations of
their rules are put in the place of the classes. -/
theorem interchangeable_of_build (built : Design.build s host roots = .ok forest)
    (t : Settings) : Interchangeable t forest := by
  have found : ∀ visit ∈ Markup.visitsOfList none forest,
      (attributes (classed t) visit.1 visit.2).flatMap (Attribute.inlined (rules forest)) =
        attributes (inlined t) visit.1 visit.2 := by
    intro visit member
    refine inlined_attributes fun rule own => ?_
    exact Markup.declarationsOf_className (nodup_rules built)
      (List.mem_filterMap.mpr ⟨visit, member, own⟩)
  have exchanged := Markup.exchangeAll_elementsOf (fun _ => rfl) false forest none found
  have bare : ∀ u : Settings, Element.exchangeAll Attribute.unstyled (elements u forest) =
      Markup.elementsOf (fun _ n => layerAttribute u n) false none forest := fun u =>
    Markup.exchangeAll_elementsOf (fun _ => rfl) false forest none
      fun visit _ => unstyled_attributes u visit.1 visit.2
  constructor
  · rfl
  · rw [elements, exchanged]
    rfl
  · rw [bare, bare]
    rfl
  · exact classNames_of_build built t
  · exact rules_of_build built
  · exact nodup_rules built
  · exact nodup_classNames built
  · exact (Css.readSheet_styleSheet_iff (named_rules built)).trans (oneLine_rules_iff built)

/-- Two frames whose names differ in a blank, each with a fill. -/
theorem interchangeable_of_build_frames :
    let fill : Scene.Paint := { paintType := .solid }
    let frame (name : String) : Scene.Node :=
      .mk { nodeType := "FRAME", name, fills := [fill] } []
    let s := Settings.defaults
    let roots := [frame "Card 1", frame "Card1"]
    let forest := (Design.ofSelection s none roots .empty).1
    Design.build s none roots = .ok forest ∧
      (rules forest).map (·.className) = ["card-1", "card-1-2"] ∧ Interchangeable s forest := by
  intro fill frame s roots forest
  have built : Design.build s none roots = .ok forest := rfl
  exact ⟨built, by decide +kernel, interchangeable_of_build built s⟩

end

end Html

end Handoff
