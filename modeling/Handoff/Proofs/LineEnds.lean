import Handoff.Conversion
import Handoff.Proofs.Dart.Wording
import Handoff.Proofs.Swift.Wording

/-!
The ends of lines in the strings of a design.

Flutter and SwiftUI code has the texts of a design in literals of one line and the names of its
layers in comments, which go to the end of their line.  A line feed is escaped or replaced, but a
carriage return stays as it is, in literals and in comments, and ends a line as well.

`lineEnds_of_build` says that the words of a design are found in its code exactly if none of the
layers shown has a carriage return in a string that is written.
-/

namespace Handoff

open Design (Node TextGroup)
open Text (Lexis Word Unbroken endsLine OneLine)

section

variable {s : Settings} {host : Option Scene.Node} {roots : List Scene.Node} {forest : List Node}

namespace Design

theorem oneLine_of_mem_wordingOf {names : Bool} {w : Word} (member : w ∈ wordingOf names forest)
    {text : String} (comment : w = .comment text) : OneLine text := by
  obtain ⟨n, -, own⟩ := List.mem_flatMap.mp member
  rw [Box.wording, List.mem_append, comment] at own
  rcases own with named | inText
  · split at named
    · obtain ⟨name, -, same⟩ := List.mem_map.mp named
      cases same
      exact Text.oneLine_append.mpr ⟨by decide, oneLine_substitute_blank name⟩
    · cases named
  · obtain ⟨t, -, among⟩ := List.mem_flatMap.mp inText
    simp [TextStyle.wording] at among

end Design

theorem Dart.finds_code_iff (built : Design.build s host roots = .ok forest) (t : Settings) :
    lexis.Finds (code t forest) (Design.wordingOf t.showLayerNames forest) ↔
      ∀ layer ∈ Scene.Node.layersAll (Scene.shownForest roots),
        layer.Unbroken t.showLayerNames := by
  have perm := Design.wordingOf_arranged_perm t.showLayerNames forest
  rw [← Lexis.finds_perm perm, Lexis.Spells.finds_iff fun _ => spells_code built,
    Text.unbroken_perm perm, Design.unbroken_wordingOf_iff built]

theorem Dart.finds_textStyles_iff (built : Design.build s host roots = .ok forest) :
    lexis.Finds (textStyles (TextGroup.ofForest forest))
        (Design.familiesOf (TextGroup.ofForest forest)) ↔
      ∀ layer ∈ Scene.Node.layersAll (Scene.shownForest roots),
        layer.kind = .text → '\r' ∉ layer.fontFamily.toList := by
  rw [Lexis.Spells.finds_iff fun _ => spells_textStyles forest,
    Design.unbroken_familiesOf_iff built]

theorem Swift.finds_code_iff (built : Design.build s host roots = .ok forest) (t : Settings) :
    lexis.Finds (code t forest) (Design.wordingOf t.showLayerNames forest) ↔
      ∀ layer ∈ Scene.Node.layersAll (Scene.shownForest roots),
        layer.Unbroken t.showLayerNames := by
  have perm := Design.wordingOf_arranged_perm t.showLayerNames forest
  rw [← Lexis.finds_perm perm, Lexis.Spells.finds_iff (spells_code built),
    Text.unbroken_perm perm, Design.unbroken_wordingOf_iff built]

theorem Swift.finds_textStyles_iff (built : Design.build s host roots = .ok forest) :
    lexis.Finds (textStyles (TextGroup.ofForest forest))
        (Design.familiesOf (TextGroup.ofForest forest)) ↔
      ∀ layer ∈ Scene.Node.layersAll (Scene.shownForest roots),
        layer.kind = .text → '\r' ∉ layer.fontFamily.toList := by
  rw [Lexis.Spells.finds_iff fun _ => spells_textStyles forest,
    Design.unbroken_familiesOf_iff built]

/-- What the ends of lines in the strings of a selection do to its code. -/
structure LineEnds (t : Settings) (roots : List Scene.Node) (forest : List Node) : Prop where
  /-- The words are those of the layers shown. -/
  words : Design.wordingOf t.showLayerNames forest =
    (Scene.Node.layersAll (Scene.shownForest roots)).flatMap (·.wording t.showLayerNames)
  /-- As a word is written, it ends no line but at a carriage return of its text. -/
  written : ∀ l ∈ [Dart.lexis, Swift.lexis], ∀ w ∈ Design.wordingOf t.showLayerNames forest,
    ∀ c, endsLine c = true → (c ∈ (l.written w).toList ↔ c ∈ w.text.toList ∧ c = '\r')
  dart : Dart.lexis.Finds (Dart.code t forest) (Design.wordingOf t.showLayerNames forest) ↔
    ∀ layer ∈ Scene.Node.layersAll (Scene.shownForest roots), layer.Unbroken t.showLayerNames
  swift : Swift.lexis.Finds (Swift.code t forest) (Design.wordingOf t.showLayerNames forest) ↔
    ∀ layer ∈ Scene.Node.layersAll (Scene.shownForest roots), layer.Unbroken t.showLayerNames
  dartStyles : Dart.lexis.Finds (Dart.textStyles (TextGroup.ofForest forest))
      (Design.familiesOf (TextGroup.ofForest forest)) ↔
    ∀ layer ∈ Scene.Node.layersAll (Scene.shownForest roots),
      layer.kind = .text → '\r' ∉ layer.fontFamily.toList
  swiftStyles : Swift.lexis.Finds (Swift.textStyles (TextGroup.ofForest forest))
      (Design.familiesOf (TextGroup.ofForest forest)) ↔
    ∀ layer ∈ Scene.Node.layersAll (Scene.shownForest roots),
      layer.kind = .text → '\r' ∉ layer.fontFamily.toList

/-- Line feeds in the strings of a selection do not get into its code, and all its words are found
there, just if none of them has a carriage return. -/
theorem lineEnds_of_build (built : Design.build s host roots = .ok forest) (t : Settings) :
    LineEnds t roots forest where
  words := Design.wordingOf_of_build built t.showLayerNames
  written _ _ _ member _ ends := Lexis.mem_written_of_endsLine ends
    fun _ comment => Design.oneLine_of_mem_wordingOf member comment
  dart := Dart.finds_code_iff built t
  swift := Swift.finds_code_iff built t
  dartStyles := Dart.finds_textStyles_iff built
  swiftStyles := Swift.finds_textStyles_iff built

/-- A text of two lines whose layer has a line feed in its name. -/
theorem lineEnds_of_build_feeds :
    let text : Scene.Node := .mk
      { id := "1:1", nodeType := "TEXT", name := "a\nb", characters := some "c\nd" } []
    let t := { Settings.defaults with showLayerNames := true }
    let forest := (Design.ofSelection t none [text] .empty).1
    Design.build t none [text] = .ok forest ∧
      Design.wordingOf true forest =
        [.comment " a b", .literal "c\nd", .literal "Inter"] ∧
      Dart.lexis.Finds (Dart.code t forest) (Design.wordingOf true forest) ∧
      Swift.lexis.Finds (Swift.code t forest) (Design.wordingOf true forest) := by
  intro text t forest
  have built : Design.build t none [text] = .ok forest := rfl
  have shown : Scene.Node.layersAll (Scene.shownForest [text]) = [text.layer] := by
    rw [← Outline.scenes_ofRoots]
    rfl
  have ends := lineEnds_of_build built t
  have whole : ∀ layer ∈ Scene.Node.layersAll (Scene.shownForest [text]),
      layer.Unbroken true := by
    rw [shown]
    decide
  refine ⟨built, ?_, ends.dart.mpr whole, ends.swift.mpr whole⟩
  rw [ends.words, shown]
  decide

/-- A carriage return stays in the literal of a text, which is left without an end, and in the
comment of a name, whose rest becomes code. -/
theorem not_finds_return :
    let text : Scene.Node := .mk
      { id := "1:1", nodeType := "TEXT", name := "Label", characters := some "a\rb" } []
    let named : Scene.Node := .mk
      { id := "1:1", nodeType := "TEXT", name := "a\rb", characters := some "Hi" } []
    let t := { Settings.defaults with showLayerNames := true }
    let first := (Design.ofSelection t none [text] .empty).1
    let second := (Design.ofSelection t none [named] .empty).1
    (Design.build t none [text] = .ok first ∧ Design.build t none [named] = .ok second) ∧
      (Dart.code t first = "// Label\nSizedBox(\n  width: 0.0,\n  height: 0.0,\n  child: Text(\n" ++
          "    'a\rb',\n    style: TextStyle(fontFamily: 'Inter', fontSize: 12.0, " ++
          "fontWeight: FontWeight.w400),\n  ),\n)" ∧
        Dart.lexis.wordsFrom 0 (Dart.code t first).toList = none ∧
        ¬ Dart.lexis.Finds (Dart.code t first) (Design.wordingOf true first)) ∧
      (Swift.code t first = "// Label\nText(\"a\rb\")\n" ++
          "    .font(.custom(\"Inter\", size: 12).weight(.regular))\n" ++
          "    .frame(width: 0, height: 0, alignment: .topLeading)" ∧
        Swift.lexis.wordsFrom 0 (Swift.code t first).toList = none ∧
        ¬ Swift.lexis.Finds (Swift.code t first) (Design.wordingOf true first)) ∧
      (Dart.lexis.wordsFrom 0 (Dart.code t second).toList =
          some [.comment " a", .literal "Hi", .literal "Inter"] ∧
        ¬ Dart.lexis.Finds (Dart.code t second) (Design.wordingOf true second)) ∧
      Swift.lexis.wordsFrom 0 (Swift.code t second).toList =
          some [.comment " a", .literal "Hi", .literal "Inter"] ∧
        ¬ Swift.lexis.Finds (Swift.code t second) (Design.wordingOf true second) := by
  intro text named t first second
  have broken : ∀ n ∈ [text, named], ¬ ∀ layer ∈ Scene.Node.layersAll (Scene.shownForest [n]),
      layer.Unbroken true := by
    have one : Scene.Node.layersAll (Scene.shownForest [text]) = [text.layer] := by
      rw [← Outline.scenes_ofRoots]
      rfl
    have other : Scene.Node.layersAll (Scene.shownForest [named]) = [named.layer] := by
      rw [← Outline.scenes_ofRoots]
      rfl
    refine List.forall_mem_cons.mpr ⟨?_, List.forall_mem_singleton.mpr ?_⟩
    · rw [one]
      decide
    · rw [other]
      decide
  have inText := broken text List.mem_cons_self
  have inName := broken named (List.mem_cons_of_mem _ List.mem_cons_self)
  refine ⟨⟨rfl, rfl⟩, ⟨by decide +kernel, by decide +kernel, ?_⟩,
    ⟨by decide +kernel, by decide +kernel, ?_⟩, ⟨by decide +kernel, ?_⟩, by decide +kernel, ?_⟩
  · exact fun found => inText ((Dart.finds_code_iff rfl t).mp found)
  · exact fun found => inText ((Swift.finds_code_iff rfl t).mp found)
  · exact fun found => inName ((Dart.finds_code_iff rfl t).mp found)
  · exact fun found => inName ((Swift.finds_code_iff rfl t).mp found)

end

end Handoff
