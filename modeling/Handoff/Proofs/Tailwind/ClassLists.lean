import Handoff.Proofs.Html.Quotes
import Handoff.Proofs.LayoutAgreement
import Handoff.Proofs.Tailwind.Alphabet
import Handoff.Proofs.Tailwind.FontClass

/-!
Class lists in their attributes.

The classes of a node are joined by spaces in the value of an attribute, where a quote would end
the value and white space a class.  All classes are plain but for the one with the family of a
font, which has the name of the family as it is in the scene, with underscores for its spaces.  So
it depends on that name alone whether a list is read as it was written (`Survives`,
`Faithful`): `classLists_of_build` says it for every class list of a design.
-/

namespace Handoff

open Design (Node)
open Text (Within within_append isWordChar pieces isAsciiSpace)

/-! ## Names of colors -/

theorem Design.ColorRef.LookedUp.called {s : Settings} {c : Design.ColorRef}
    (looked : c.LookedUp s) : Tailwind.Called c :=
  fun m called => Tailwind.within_word (looked.named m called)

namespace Tailwind

section

variable {s : Settings} {host : Option Scene.Node} {roots : List Scene.Node} {forest : List Node}

/-- The colors of a design are called by names for classes, if by any. -/
theorem nodeCalled_of_build (built : Design.build s host roots = .ok forest) :
    ∀ n ∈ Node.preorderList forest, NodeCalled n := by
  intro n member p among c inside
  refine (Design.lookedUp_of_build built c ?_).called
  refine List.mem_flatMap.mpr ⟨n, member, List.mem_append_left _ ?_⟩
  exact List.mem_flatMap.mpr ⟨p, among, inside⟩

end

/-! ## Where foreign characters can come from -/

section

variable {rounding : Bool} {parent : Option Node} {n : Node}

/-- The family of the text of a node, if it has one. -/
def familyOf? (n : Node) : Option String := n.box.style.text.map (·.typography.family)

theorem plain_or_font (called : NodeCalled n) : ∀ u ∈ classes rounding parent n,
    IsPlain u ∨ ∃ f, familyOf? n = some f ∧ u = .named "font" (family f) := by
  intro u member
  cases present : n.box.style.text with
  | none => exact .inl (plain_classes rounding parent called present u member)
  | some t =>
      obtain ⟨before, after, listed, early, late⟩ := classes_text rounding parent called present
      rw [listed] at member
      rcases List.mem_append.mp member with first | rest
      · exact .inl (early u first)
      · rcases List.mem_cons.mp rest with rfl | later
        · exact .inr ⟨_, by rw [familyOf?, present]; rfl, rfl⟩
        · exact .inl (late u later)

theorem font_mem_classes (called : NodeCalled n) {f : String} (present : familyOf? n = some f) :
    .named "font" (family f) ∈ classes rounding parent n := by
  obtain ⟨t, text, rfl⟩ := Option.map_eq_some_iff.mp present
  obtain ⟨before, after, listed, -⟩ := classes_text rounding parent called text
  rw [listed]
  exact List.mem_append_right _ List.mem_cons_self

theorem names_ne_empty (called : NodeCalled n) :
    ∀ name ∈ names (classes rounding parent n), name ≠ "" := by
  intro name member
  obtain ⟨u, among, rfl⟩ := List.mem_map.mp member
  rcases plain_or_font called u among with plain | ⟨f, -, rfl⟩
  · exact plain.1
  · exact text_named_ne_empty "font" (family f)

/-- A character that is in no plain class comes from the family of the text. -/
theorem mem_names_iff (called : NodeCalled n) {c : Char} (foreign : isClassChar c = false) :
    (∃ name ∈ names (classes rounding parent n), c ∈ name.toList) ↔
      ∃ f, familyOf? n = some f ∧ c ∈ (family f).toList := by
  have stemmed : Within isClassChar "font-" := by decide
  have stem := stemmed.not_mem foreign
  have own (f : String) : c ∈ (Utility.named "font" (family f)).text.toList ↔
      c ∈ (family f).toList := by
    have front : "font" ++ "-" = "font-" := by decide
    rw [text_named, front, String.toList_append, List.mem_append, or_iff_right stem]
  constructor
  · rintro ⟨name, member, inside⟩
    obtain ⟨u, among, rfl⟩ := List.mem_map.mp member
    rcases plain_or_font called u among with plain | ⟨f, present, rfl⟩
    · exact absurd inside (plain.2.not_mem foreign)
    · exact ⟨f, present, (own f).mp inside⟩
  · rintro ⟨f, present, inside⟩
    exact ⟨_, List.mem_map_of_mem (font_mem_classes called present), (own f).mpr inside⟩

end

/-! ## Names of families -/

/-- A character that does not belong to the form of a font class is from the name of the family. -/
theorem mem_family_iff {c : Char} (foreign : c ∉ [' ', '_', '[', ']', '\'']) (f : String) :
    c ∈ (family f).toList ↔ c ∈ f.toList := by
  simp only [List.mem_cons, List.not_mem_nil, or_false, not_or] at foreign
  obtain ⟨space, underscore, opening, closing, quote⟩ := foreign
  have moved : c ∈ (Text.substitute ' ' ['_'] f).toList ↔ c ∈ f.toList := by
    rw [Text.toList_substitute, List.mem_map]
    constructor
    · rintro ⟨d, member, same⟩
      split at same
      · exact absurd same.symm underscore
      · exact same ▸ member
    · exact fun member => ⟨c, member, if_neg space⟩
  rw [family_eq, familyCss]
  split <;> simp [moved, opening, closing, quote]

theorem space_not_mem_family (f : String) : ' ' ∉ (family f).toList := by
  rw [family_eq, familyCss]
  split
  · simp [Text.not_mem_substitute]
  · rename_i single
    simpa using single

/-- A family whose name is read from its class as it is: it has no quote, no underscore and no
white space but spaces, and is a string or an identifier in CSS. -/
structure Faithful (f : String) : Prop where
  quotes : '"' ∉ f.toList
  spaces : ∀ c ∈ f.toList, isAsciiSpace c = true → c = ' '
  readable : Readable f

/-! ## Lists as they are read -/

/-- The value of the attribute of a class list. -/
def listValue (listed : List String) : String := (Markup.Attribute.classes listed).value

/-- A class list survives its attribute: there is no quote in the value, white space parts the
classes, and the family of the text is asked for. -/
structure Survives (listed : List String) (family : Option String) : Prop where
  quotes : '"' ∉ (listValue listed).toList
  words : pieces isAsciiSpace (listValue listed) = listed
  family : ∀ f, family = some f → fontFamily? listed = some f

section

variable {rounding : Bool} {parent : Option Node} {n : Node}

theorem quote_mem_listValue_iff (called : NodeCalled n) :
    '"' ∈ (listValue (names (classes rounding parent n))).toList ↔
      ∃ f, familyOf? n = some f ∧ '"' ∈ f.toList := by
  rw [listValue, Markup.Attribute.value, Text.mem_toList_intercalate (by decide),
    mem_names_iff called (by decide)]
  simp only [mem_family_iff (show '"' ∉ [' ', '_', '[', ']', '\''] by decide)]

theorem foreign_of_isAsciiSpace {c : Char} (white : isAsciiSpace c = true) :
    isClassChar c = false ∧ (c ≠ ' ' → c ∉ [' ', '_', '[', ']', '\'']) := by
  simp only [isAsciiSpace, Bool.or_eq_true, beq_iff_eq] at white
  rcases white with (((rfl | rfl) | rfl) | rfl) | rfl <;> decide

/-- White space parts the classes of a node exactly if there is none but spaces in its family. -/
theorem pieces_listValue_iff (called : NodeCalled n) :
    pieces isAsciiSpace (listValue (names (classes rounding parent n))) =
        names (classes rounding parent n) ↔
      ∀ f, familyOf? n = some f → ∀ c ∈ f.toList, isAsciiSpace c = true → c = ' ' := by
  have space : " " = String.singleton ' ' := rfl
  rw [listValue, Markup.Attribute.value, space,
    Text.pieces_intercalate_eq_self_iff (by decide) (names_ne_empty called)]
  constructor
  · intro whole f present c member white
    obtain ⟨foreign, unformed⟩ := foreign_of_isAsciiSpace white
    by_contra other
    obtain ⟨name, among, inside⟩ := (mem_names_iff called foreign).mpr
      ⟨f, present, (mem_family_iff (unformed other) f).mpr member⟩
    cases white.symm.trans (whole name among c inside)
  · intro single name among c inside
    by_contra white
    rw [Bool.not_eq_false] at white
    obtain ⟨foreign, unformed⟩ := foreign_of_isAsciiSpace white
    obtain ⟨f, present, written⟩ := (mem_names_iff called foreign).mp ⟨name, among, inside⟩
    by_cases space : c = ' '
    · exact space_not_mem_family f (space ▸ written)
    · exact space (single f present c ((mem_family_iff (unformed space) f).mp written) white)

theorem fontFamily?_names_eq_iff {f : String} (present : familyOf? n = some f) :
    fontFamily? (names (classes rounding parent n)) = some f ↔ Readable f := by
  obtain ⟨t, text, rfl⟩ := Option.map_eq_some_iff.mp present
  exact fontFamily?_names_iff text

/-- The class list of a node survives exactly if the name of its family is faithful. -/
theorem survives_iff (called : NodeCalled n) :
    Survives (names (classes rounding parent n)) (familyOf? n) ↔
      ∀ f, familyOf? n = some f → Faithful f := by
  constructor
  · intro survives f present
    refine ⟨fun quote => ?_, (pieces_listValue_iff called).mp survives.words f present, ?_⟩
    · exact survives.quotes ((quote_mem_listValue_iff called).mpr ⟨f, present, quote⟩)
    · exact (fontFamily?_names_eq_iff present).mp (survives.family f present)
  · intro faithful
    refine ⟨fun quote => ?_, (pieces_listValue_iff called).mpr fun f present => ?_,
      fun f present => ?_⟩
    · obtain ⟨f, present, inside⟩ := (quote_mem_listValue_iff called).mp quote
      exact (faithful f present).quotes inside
    · exact (faithful f present).spaces
    · exact (fontFamily?_names_eq_iff present).mpr (faithful f present).readable

end

/-! ## Designs -/

section

variable {s : Settings} {host : Option Scene.Node} {roots : List Scene.Node} {forest : List Node}

/-- A class list is that of its node. -/
theorem classes_mem_attributesOf_iff {t : Settings} {parent : Option Node} {n : Node}
    {listed : List String} :
    .classes listed ∈ Markup.attributesOf (attributes t) parent n ↔
      classes t.roundTailwindValues parent n ≠ [] ∧
        listed = names (classes t.roundTailwindValues parent n) := by
  have own : .classes listed ∈ attributes t parent n ↔
      classes t.roundTailwindValues parent n ≠ [] ∧
        listed = names (classes t.roundTailwindValues parent n) := by
    unfold attributes
    split
    · rename_i none
      simp [none]
    · rename_i present
      rw [List.mem_singleton, Markup.Attribute.classes.injEq]
      exact ⟨fun same => ⟨present, same⟩, And.right⟩
  unfold Markup.attributesOf
  split
  · rw [List.mem_cons, ← own]
    simp
  · exact own

/-- The name of the attribute of a class list. -/
def attributeName : Markup.Dialect → String
  | .html => "class"
  | .jsx => "className"

/-- A class list is read as it was written but for what the name of a family brings into it: the
value of its attribute has the quotes of that name, it is parted by the white space of that name,
and the family it asks for is that name only if the name can be read.  So all class lists of a
design survive exactly if the families of all texts shown are faithful. -/
theorem classLists_of_build (built : Design.build s host roots = .ok forest) (t : Settings) :
    let elements := Markup.elementsOf (attributes t) t.showLayerNames none forest
    code t forest = Markup.document (.ofSettings t) elements ∧
      (Markup.Element.listParts elements).map Markup.Element.attributes =
        (Node.preorderListUnder none forest).map (fun visit =>
          Markup.attributesOf (attributes t) visit.1 visit.2) ∧
      (∀ visit ∈ Node.preorderListUnder none forest,
        ∀ listed, .classes listed ∈ Markup.attributesOf (attributes t) visit.1 visit.2 →
          listed = names (classes t.roundTailwindValues visit.1 visit.2) ∧
          (∀ dialect, (Markup.Attribute.classes listed).text dialect =
            attributeName dialect ++ "=\"" ++ listValue listed ++ "\"") ∧
          ('"' ∈ (listValue listed).toList ↔
            ∃ f, familyOf? visit.2 = some f ∧ '"' ∈ f.toList) ∧
          (pieces isAsciiSpace (listValue listed) = listed ↔
            ∀ f, familyOf? visit.2 = some f →
              ∀ c ∈ f.toList, isAsciiSpace c = true → c = ' ') ∧
          (∀ f, familyOf? visit.2 = some f → (fontFamily? listed = some f ↔ Readable f))) ∧
      ((∀ visit ∈ Node.preorderListUnder none forest,
          ∀ listed, .classes listed ∈ Markup.attributesOf (attributes t) visit.1 visit.2 →
            Survives listed (familyOf? visit.2)) ↔
        ∀ layer ∈ Scene.Node.layersAll (Scene.shownForest roots),
          layer.kind = .text → Faithful layer.fontFamily) := by
  intro elements
  have within : ∀ visit ∈ Node.preorderListUnder none forest, NodeCalled visit.2 := by
    intro visit member
    exact nodeCalled_of_build built visit.2 (Node.mem_of_mem_preorderListUnder member)
  refine ⟨rfl, Markup.map_attributes_of_build built _ _, ?_, ?_⟩
  · intro visit member listed own
    obtain ⟨-, rfl⟩ := classes_mem_attributesOf_iff.mp own
    have called := within visit member
    exact ⟨rfl, fun dialect => by cases dialect <;> rfl, quote_mem_listValue_iff called,
      pieces_listValue_iff called, fun f => fontFamily?_names_eq_iff⟩
  · calc (∀ visit ∈ Node.preorderListUnder none forest,
          ∀ listed, .classes listed ∈ Markup.attributesOf (attributes t) visit.1 visit.2 →
            Survives listed (familyOf? visit.2))
      _ ↔ ∀ visit ∈ Node.preorderListUnder none forest,
            ∀ f, familyOf? visit.2 = some f → Faithful f := by
          refine forall₂_congr fun visit member => ?_
          have called := within visit member
          constructor
          · intro survive f present
            have own : .classes (names (classes t.roundTailwindValues visit.1 visit.2)) ∈
                Markup.attributesOf (attributes t) visit.1 visit.2 :=
              classes_mem_attributesOf_iff.mpr
                ⟨List.ne_nil_of_mem (font_mem_classes called present), rfl⟩
            exact (survives_iff called).mp (survive _ own) f present
          · intro faithful listed own
            obtain ⟨-, rfl⟩ := classes_mem_attributesOf_iff.mp own
            exact (survives_iff called).mpr faithful
      _ ↔ ∀ family ∈ (Node.preorderList forest).map familyOf?,
            ∀ f, family = some f → Faithful f := by
          rw [← Node.map_snd_preorderListUnder forest none]
          simp only [List.forall_mem_map]
      _ ↔ ∀ layer ∈ Scene.Node.layersAll (Scene.shownForest roots),
            layer.kind = .text → Faithful layer.fontFamily := by
          have families := Html.families_of_build built
          rw [show (Node.preorderList forest).map familyOf? = _ from families, List.forall_mem_map]
          refine forall₂_congr fun layer _ => ?_
          by_cases text : layer.kind = .text
          · simp only [text, if_true, Option.some.injEq, forall_eq', true_imp_iff]
          · simp only [text, if_false, reduceCtorEq, false_imp_iff, implies_true]

/-- A frame with a text in a font of two words. -/
theorem classLists_of_build_label :
    let label : Scene.Node := .mk
      { id := "1:2", nodeType := "TEXT", characters := some "Hi",
        fontName := some { family := "Fira Sans" } } []
    let roots : List Scene.Node := [.mk { nodeType := "FRAME", name := "Card" } [label]]
    let forest := (Design.ofSelection .defaults none roots .empty).1
    Design.build .defaults none roots = .ok forest ∧
      ∀ visit ∈ Node.preorderListUnder none forest,
        ∀ listed, .classes listed ∈ Markup.attributesOf (attributes .defaults) visit.1 visit.2 →
          Survives listed (familyOf? visit.2) := by
  intro label roots forest
  have built : Design.build .defaults none roots = .ok forest := rfl
  refine ⟨built, (classLists_of_build built .defaults).2.2.2.mpr ?_⟩
  have shown : Scene.Node.layersAll (Scene.shownForest roots) =
      [(Scene.Node.mk { nodeType := "FRAME", name := "Card" } [label]).layer, label.layer] := by
    rw [← Outline.scenes_ofRoots]
    rfl
  rw [shown]
  simp only [List.forall_mem_cons, List.not_mem_nil, false_imp_iff, implies_true, and_true]
  have spaced : Within (fun c => !isAsciiSpace c || c == ' ') label.layer.fontFamily := by
    decide +kernel
  exact ⟨fun text => absurd text (by decide), fun _ => ⟨by decide +kernel,
    fun c member white => by simpa [white] using spaced c member, by decide +kernel⟩⟩

/-- The classes of a text in three fonts: a quote in the name of the first ends the attribute, a
tab in that of the second ends the class, and the underscore in that of the third is read as a
space. -/
theorem not_classLists_plain :
    let text (name : String) : Scene.Node := .mk
      { id := "1:1", nodeType := "TEXT", characters := some "Hi",
        fontName := some { family := name } } []
    let forest (name : String) := (Design.ofSelection .defaults none [text name] .empty).1
    let listed (name : String) := (forest name).flatMap fun n => names (classes false none n)
    (∀ name, Design.build .defaults none [text name] = .ok (forest name)) ∧
      code .defaults (forest "A\" onclick=\"x") =
        "<div class=\"w-0 h-0 font-['A\"_onclick=\"x'] text-xs font-normal\">Hi</div>" ∧
      pieces isAsciiSpace (listValue (listed "A\tB")) =
        ["w-0", "h-0", "font-[A", "B]", "text-xs", "font-normal"] ∧
      fontFamily? (listed "A_B") = some "A B" := by
  intro text forest listed
  exact ⟨fun _ => rfl, by decide +kernel, by decide +kernel, by decide +kernel⟩

end

end Tailwind

end Handoff
