import Handoff.Proofs.Design.Preorder
import Handoff.Proofs.Design.WellFormed
import Handoff.Proofs.Scene.RoundTrip
import Handoff.Target
import Handoff.CommandLine.Run

/-!
Designs written as JSON and read again.

The parts of a design are decoded from what they are written as, whether their cases are told
apart by a tag among the fields, by the name of the only field or by a word.  Only the weight of
a text has bounds of its own: it is read into sixteen bits, and the weights of a design that was
built of a selection fit into them (`weightsFit_of_build`).  So the design that is read from
what a program printed gives the code that the design itself gives (`reprinted_of_finite`).
-/

namespace Handoff

open Json (StrictCodec)

instance : StrictCodec Palette.Match.toJson Palette.Match.ofJson? where
  wellNamed m := by simp [Palette.Match.toJson]
  restored := by
    intro f m kept
    simp [Palette.Match.toJson, Palette.Match.ofJson?]
  strict := rfl

namespace Design

/-! ## Records -/

instance {α : Type} [Enumeration α] : StrictCodec (wordJson (α := α)) word? where
  wellNamed a := by simp [wordJson, Enumeration.toJson]
  restored := by
    intro f a _
    rw [wordJson, Enumeration.toJson, Json.mapNumbers, word?, Enumeration.ofJson?, Json.tag?,
      Option.bind_some, Enumeration.ofWord?_word]
  strict := rfl

instance : StrictCodec ColorRef.toJson ColorRef.ofJson? where
  wellNamed c := by simp [ColorRef.toJson]
  restored := by
    intro f c kept
    simp only [ColorRef.toJson, Json.kept_obj, List.forall_mem_cons] at kept
    simp [ColorRef.toJson, ColorRef.ofJson?, kept]
  strict := rfl

instance : StrictCodec GradientStop.toJson GradientStop.ofJson? where
  wellNamed s := by simp [GradientStop.toJson]
  restored := by
    intro f s kept
    simp only [GradientStop.toJson, Json.kept_obj, List.forall_mem_cons] at kept
    simp [GradientStop.toJson, GradientStop.ofJson?, kept]
  strict := rfl

@[simp] theorem tagged?_mapNumbers {f : Json → Json} {tagName tag : String}
    {entries : List (String × Json)} :
    tagged? tagName ((Json.obj ((tagName, .str tag) :: entries)).mapNumbers f) =
      some (tag, (Json.obj ((tagName, .str tag) :: entries)).mapNumbers f) := by
  simp [Json.mapNumbers, Json.mapFields, tagged?, Json.text?]

@[simp] theorem bare?_mapNumbers {α : Type} {a : α} {f : Json → Json}
    {entries : List (String × Json)} : bare? a ((Json.obj entries).mapNumbers f) = some a :=
  rfl

@[simp] theorem caseOf?_mapNumbers {f : Json → Json} {name : String} {json : Json} :
    caseOf? ((Json.obj [(name, json)]).mapNumbers f) = some (name, json.mapNumbers f) :=
  rfl

instance : StrictCodec Fill.toJson Fill.ofJson? where
  wellNamed fill := by cases fill <;> simp [Fill.toJson, withTag]
  restored := by
    intro f fill kept
    cases fill with
    | solid color =>
        simp only [Fill.toJson, withTag, Json.kept_obj, List.forall_mem_cons] at kept
        simp [Fill.toJson, Fill.ofJson?, withTag, kept]
    | linearGradient angle stops =>
        simp only [Fill.toJson, withTag, Json.kept_obj, List.forall_mem_cons] at kept
        simp [Fill.toJson, Fill.ofJson?, withTag, kept]
    | image imageRef scaleMode =>
        simp only [Fill.toJson, withTag, Json.kept_obj, List.forall_mem_cons] at kept
        simp [Fill.toJson, Fill.ofJson?, withTag, kept]
  strict := rfl

instance : StrictCodec Paint.toJson Paint.ofJson? where
  wellNamed p := by simp [Paint.toJson]
  restored := by
    intro f p kept
    simp only [Paint.toJson, Json.kept_obj, List.forall_mem_cons] at kept
    simp [Paint.toJson, Paint.ofJson?, kept]
  strict := rfl

instance : StrictCodec Stroke.toJson Stroke.ofJson? where
  wellNamed s := by simp [Stroke.toJson]
  restored := by
    intro f s kept
    simp only [Stroke.toJson, Json.kept_obj, List.forall_mem_cons] at kept
    simp [Stroke.toJson, Stroke.ofJson?, kept]
  strict := rfl

instance : StrictCodec CornerRadius.toJson CornerRadius.ofJson? where
  wellNamed r := by cases r <;> simp [CornerRadius.toJson]
  restored := by
    intro f r kept
    cases r with
    | none => rfl
    | uniform radius =>
        simp only [CornerRadius.toJson, Json.kept_obj, List.forall_mem_singleton] at kept
        have own := Json.Codec.restored kept
        simp [CornerRadius.toJson, CornerRadius.ofJson?, own]
    | perCorner tl tr br bl =>
        simp only [CornerRadius.toJson, Json.kept_obj, List.forall_mem_singleton] at kept
        have own := Json.list?_mapNumbers kept
        simp [CornerRadius.toJson, CornerRadius.ofJson?, own]
  strict := rfl

instance : StrictCodec Effect.toJson Effect.ofJson? where
  wellNamed e := by cases e <;> simp [Effect.toJson, Shadow.entries, withTag]
  restored := by
    intro f e kept
    cases e with
    | dropShadow s =>
        simp only [Effect.toJson, withTag, Shadow.entries, Json.kept_obj,
          List.forall_mem_cons] at kept
        simp [Effect.toJson, Effect.ofJson?, withTag, Shadow.entries, Shadow.ofJson?, kept]
    | innerShadow s =>
        simp only [Effect.toJson, withTag, Shadow.entries, Json.kept_obj,
          List.forall_mem_cons] at kept
        simp [Effect.toJson, Effect.ofJson?, withTag, Shadow.entries, Shadow.ofJson?, kept]
    | layerBlur radius =>
        simp only [Effect.toJson, withTag, Json.kept_obj, List.forall_mem_cons] at kept
        simp [Effect.toJson, Effect.ofJson?, withTag, Effect.radius?, kept]
    | backgroundBlur radius =>
        simp only [Effect.toJson, withTag, Json.kept_obj, List.forall_mem_cons] at kept
        simp [Effect.toJson, Effect.ofJson?, withTag, Effect.radius?, kept]
  strict := rfl

instance : StrictCodec Padding.toJson Padding.ofJson? where
  wellNamed p := by simp [Padding.toJson]
  restored := by
    intro f p kept
    simp only [Padding.toJson, Json.kept_obj, List.forall_mem_cons] at kept
    simp [Padding.toJson, Padding.ofJson?, kept]
  strict := rfl

instance : StrictCodec Mode.toJson Mode.ofJson? where
  wellNamed m := by cases m <;> simp [Mode.toJson, Flow.entries, withTag]
  restored := by
    intro f m kept
    cases m with
    | flow flow =>
        simp only [Mode.toJson, withTag, Flow.entries, Json.kept_obj, List.forall_mem_cons] at kept
        simp [Mode.toJson, Mode.ofJson?, withTag, Flow.entries, Flow.ofJson?, kept]
    | absolute => simp [Mode.toJson, Mode.ofJson?, withTag]
  strict := rfl

instance : StrictCodec Extent.toJson Extent.ofJson? where
  wellNamed e := by cases e <;> simp [Extent.toJson]
  restored := by
    intro f e kept
    cases e with
    | fixed v =>
        simp only [Extent.toJson, Json.kept_obj, List.forall_mem_singleton] at kept
        have own := Json.Codec.restored kept
        simp [Extent.toJson, Extent.ofJson?, own]
    | hug => rfl
    | fill => rfl
  strict := rfl

instance : StrictCodec Sizing.toJson Sizing.ofJson? where
  wellNamed s := by simp [Sizing.toJson]
  restored := by
    intro f s kept
    simp only [Sizing.toJson, Json.kept_obj, List.forall_mem_cons] at kept
    simp [Sizing.toJson, Sizing.ofJson?, kept]
  strict := rfl

instance : StrictCodec Placement.toJson Placement.ofJson? where
  wellNamed p := by cases p <;> simp [Placement.toJson]
  restored := by
    intro f p kept
    cases p with
    | root => rfl
    | flow => rfl
    | absolute left top =>
        simp only [Placement.toJson, Json.kept_obj, List.forall_mem_cons] at kept
        simp [Placement.toJson, Placement.ofJson?, kept]
  strict := rfl

instance : StrictCodec Layout.toJson Layout.ofJson? where
  wellNamed l := by simp [Layout.toJson]
  restored := by
    intro f l kept
    simp only [Layout.toJson, Json.kept_obj, List.forall_mem_cons] at kept
    simp [Layout.toJson, Layout.ofJson?, kept]
  strict := rfl

instance : StrictCodec Kind.toJson Kind.ofJson? where
  wellNamed k := by cases k <;> simp [Kind.toJson, withTag]
  restored := by
    intro f k kept
    cases k with
    | vector shape =>
        simp only [Kind.toJson, withTag, Json.kept_obj, List.forall_mem_cons] at kept
        simp [Kind.toJson, Kind.ofJson?, withTag, kept]
    | _ => simp [Kind.toJson, Kind.ofJson?, withTag]
  strict := rfl

instance : StrictCodec Geometry.toJson Geometry.ofJson? where
  wellNamed g := by simp [Geometry.toJson]
  restored := by
    intro f g kept
    simp only [Geometry.toJson, Json.kept_obj, List.forall_mem_cons] at kept
    simp [Geometry.toJson, Geometry.ofJson?, kept]
  strict := rfl

/-! ## Texts

A weight is written as an integer and read into sixteen bits, so what has a text in it is only
decoded if the weight fits. -/

section

variable {f : Json → Json}

theorem Typography.wellNamed (t : Typography) : t.toJson.WellNamed := by
  simp [Typography.toJson, Json.WellNamed]

theorem Typography.ofJson?_mapNumbers {t : Typography} (fits : t.weight ≤ 65535)
    (kept : t.toJson.Kept f) : Typography.ofJson? (t.toJson.mapNumbers f) = some t := by
  simp only [Typography.toJson, Json.kept_obj, List.forall_mem_cons, Json.kept_int] at kept
  have weight : Json.natUpTo? 65535 ((Json.int t.weight).mapNumbers f) = some t.weight := by
    rw [Json.mapNumbers, kept.2.1, Json.natUpTo?, if_pos (by omega), Int.toNat_natCast]
  simp [Typography.toJson, Typography.ofJson?, kept, Json.required_of_restored weight]

theorem TextStyle.wellNamed (t : TextStyle) : t.toJson.WellNamed := by
  simp [TextStyle.toJson, Typography.wellNamed]

theorem TextStyle.ofJson?_mapNumbers {t : TextStyle} (fits : t.typography.weight ≤ 65535)
    (kept : t.toJson.Kept f) : TextStyle.ofJson? (t.toJson.mapNumbers f) = some t := by
  simp only [TextStyle.toJson, Json.kept_obj, List.forall_mem_cons] at kept
  have typography := Typography.ofJson?_mapNumbers fits kept.2.1
  simp [TextStyle.toJson, TextStyle.ofJson?, Json.required_of_restored typography]

/-- The weight of a text in a style fits into sixteen bits. -/
def Style.WeightFits (s : Style) : Prop :=
  ∀ t ∈ s.text, t.typography.weight ≤ 65535

theorem Style.wellNamed (s : Style) : s.toJson.WellNamed := by
  simp [Style.toJson, Json.wellNamed_ofOption TextStyle.wellNamed]

theorem Style.ofJson?_mapNumbers {s : Style} (fits : s.WeightFits) (kept : s.toJson.Kept f) :
    Style.ofJson? (s.toJson.mapNumbers f) = some s := by
  simp only [Style.toJson, Json.kept_obj, List.forall_mem_cons] at kept
  obtain ⟨-, -, -, -, -, -, -, inText, -⟩ := id kept
  have text := Json.nullable?_mapNumbers (o := s.text) rfl fun t own =>
    TextStyle.ofJson?_mapNumbers (fits t own) (Json.kept_ofOption.mp inText t own)
  simp [Style.toJson, Style.ofJson?, kept, Json.optional_of_restored text]

theorem Box.wellNamed_entries (b : Box) : ∀ field ∈ b.entries, field.2.WellNamed := by
  simp [Box.entries, Style.wellNamed]

/-- Whatever other fields there are, a box is decoded from its own. -/
theorem Box.ofFields?_mapFields {b : Box} {more : List (String × Json)}
    (fits : b.style.WeightFits) (kept : ∀ field ∈ b.entries, field.2.Kept f) (named : Bool) :
    Box.ofFields? ⟨Json.mapFields f (b.entries ++ more), named⟩ = some b := by
  simp only [Box.entries, List.forall_mem_cons] at kept
  have style := Style.ofJson?_mapNumbers fits kept.2.2.2.2.2.1
  simp [Box.entries, Box.ofFields?, kept, Json.required_of_restored style]

end

/-! ## Nodes -/

namespace Box

variable {b : Box} {json : Json}

/-- The children of a node have a name of their own. -/
theorem nodup_names : ((b.entries ++ [("children", json)]).map (·.1)).Nodup := by
  simp [entries]

theorem ne_children : ∀ field ∈ b.entries, field.1 ≠ "children" := by
  simp [entries]

end Box

namespace Node

variable {f : Json → Json} {forest : List Node}

/-- The children are found behind fields of other names. -/
theorem childrenOfEntries?_append {before : List (String × Json)} {items : List Json}
    (others : ∀ field ∈ before, field.1 ≠ "children") :
    childrenOfEntries? (before ++ [("children", .arr items)]) = listOfJson? items := by
  induction before with
  | nil => rfl
  | cons field before ih =>
      obtain ⟨other, others⟩ := List.forall_mem_cons.mp others
      rw [List.cons_append, childrenOfEntries?.eq_def]
      dsimp only
      rw [if_neg other]
      exact ih others

theorem wellNamed_listToJson : ∀ item ∈ listToJson forest, item.WellNamed := by
  induction forest using forestInduction with
  | nil => exact List.forall_mem_nil _
  | cons box children rest below after =>
      refine List.forall_mem_cons.mpr ⟨?_, after⟩
      rw [toJson, Json.wellNamed_obj, List.forall_mem_append, List.forall_mem_singleton,
        Json.wellNamed_arr]
      exact ⟨Box.nodup_names, Box.wellNamed_entries box, below⟩

/-- The weights of all texts of a forest fit into sixteen bits. -/
def WeightsFit (forest : List Node) : Prop :=
  ∀ n ∈ preorderList forest, n.box.style.WeightFits

/-- Nodes are decoded from their encodings, however deep they nest. -/
theorem listOfJson?_mapItems (fits : WeightsFit forest)
    (kept : ∀ item ∈ listToJson forest, item.Kept f) :
    listOfJson? (Json.mapItems f (listToJson forest)) = some forest := by
  induction forest using forestInduction with
  | nil => rfl
  | cons box children rest below after =>
      obtain ⟨weight, weights, later⟩ := forall_preorderList_mk_cons.mp fits
      rw [listToJson, List.forall_mem_cons, toJson, Json.kept_obj, List.forall_mem_append,
        List.forall_mem_singleton, Json.kept_arr] at kept
      obtain ⟨⟨own, inner⟩, others⟩ := kept
      have node : ofJson? ((mk box children).toJson.mapNumbers f) = some (mk box children) := by
        have inside : childrenOfEntries? (Json.mapFields f (box.entries ++
            [("children", .arr (listToJson children))])) = some children := by
          rw [Json.mapFields_append]
          refine (childrenOfEntries?_append ?_).trans (below weights inner)
          exact Json.forall_mem_mapFields (P := (· ≠ "children")).mpr Box.ne_children
        rw [toJson, Json.mapNumbers, ofJson?, Box.ofFields?_mapFields (b := box) weight own true,
          inside]
        rfl
      rw [listToJson, Json.mapItems, listOfJson?, node, after later others]
      rfl

theorem wellNamed_forestJson (forest : List Node) : (forestJson forest).WellNamed :=
  Json.wellNamed_arr.mpr wellNamed_listToJson

theorem forest?_mapNumbers (fits : WeightsFit forest) (kept : (forestJson forest).Kept f) :
    forest? ((forestJson forest).mapNumbers f) = some forest :=
  listOfJson?_mapItems fits (Json.kept_arr.mp kept)

end Node

end Design

/-! ## Designs of selections -/

namespace Scene

theorem styleWeight_le (style : String) : styleWeight style ≤ 65535 := by
  unfold styleWeight
  have each : ∀ entry ∈ styleWeights, entry.2 ≤ 65535 := by decide
  dsimp only
  split
  · rename_i found
    exact each _ (List.mem_of_find?_eq_some found)
  · decide

theorem toClampedNat_le (limit : Nat) (x : Float) : Decimal.toClampedNat limit x ≤ limit := by
  unfold Decimal.toClampedNat Decimal.toClampedInt
  split
  · omega
  · split
    · omega
    · split <;> omega

theorem Layer.textWeight_le (l : Layer) : l.textWeight ≤ 65535 := by
  unfold Layer.textWeight
  split
  · split
    · exact toClampedNat_le _ _
    · exact styleWeight_le _
  · exact styleWeight_le _

end Scene

namespace Design

open Node (forestJson forest? WeightsFit)

section

variable {s : Settings} {host : Option Scene.Node} {roots : List Scene.Node} {forest : List Node}

/-- The weights in a design fit into sixteen bits. -/
theorem weightsFit_of_build (built : Design.build s host roots = .ok forest) :
    WeightsFit forest := by
  obtain ⟨rfl, -⟩ := build_eq_ok built
  have own (o : Outline) : (o.style s).WeightFits := by
    intro t text
    unfold Outline.style at text
    split at text
    · rw [Scene.Layer.style] at text
      dsimp only at text
      split at text
      · rw [← Option.some.inj text]
        exact o.layer.textWeight_le
      · cases text
    · cases text
  have follows : Node.FollowsAll (fun _ _ box => box.style.WeightFits) none
      (Scene.shownForest roots) (ofSelection s host roots .empty).1 :=
    followsAll_ofSelection s host roots .empty (fun o _ _ => own o) (fun o _ _ _ => own o)
  intro n member
  obtain ⟨source, -, above, agrees⟩ := follows.exists_source n member
  rcases source with ⟨layer, sources⟩
  rcases n with ⟨box, children⟩
  exact agrees.1

/-- The text that a program prints of a design: its JSON and a line end. -/
def printed (forest : List Node) : String :=
  CommandLine.onLine (forestJson forest).pretty

theorem printDesign_of_build (built : Design.build s none roots = .ok forest) :
    CommandLine.printDesign s roots = .success (printed forest) [] := by
  rw [CommandLine.printDesign, built]
  rfl

/-- What is decoded is the forest as far as any code made of it tells. -/
structure EmitsAlike (decoded : Option (List Node)) (forest : List Node) : Prop where
  code : ∀ (t : Settings) (framework : Framework),
    decoded.map (framework.artifacts t) = some (framework.artifacts t forest)
  /-- The text styles and the colors with it. -/
  artifacts : ∀ t : Settings, decoded.map (artifactsOf t) = some (artifactsOf t forest)
  warnings : ∀ framework : Framework,
    decoded.map (Framework.warnings · framework) = some (framework.warnings forest)

theorem emitsAlike_of_eq {decoded : Option (List Node)} (same : decoded = some forest) :
    EmitsAlike decoded forest := by
  subst same
  exact ⟨fun _ _ => rfl, fun _ => rfl, fun _ => rfl⟩

/-- The design of a selection, decoded from what was printed of it. -/
structure Reprinted (forest : List Node) : Prop where
  value : EmitsAlike (forest? (forestJson forest).reread) forest
  text : (forestJson forest).depth ≤ Json.depthLimit →
    EmitsAlike ((Json.read? (printed forest)).bind forest?) forest
  stdout : ∀ s roots, Design.build s none roots = .ok forest →
    (CommandLine.printDesign s roots).stdout = printed forest

/-- A forest whose numbers are finite is had again from its JSON, however deep it nests, and the
code of a design can be made of that. -/
theorem reprinted_of_finite (finite : (forestJson forest).Finite)
    (exact : (forestJson forest).PrintedExactly) :
    (WeightsFit forest → Json.RoundTrip forestJson forest? forest) ∧
      ∀ s host roots, Design.build s host roots = .ok forest → Reprinted forest := by
  have trip (fits : WeightsFit forest) : Json.RoundTrip forestJson forest? forest :=
    Json.roundTrip_of_restored (Node.wellNamed_forestJson forest)
      (fun _ => Node.forest?_mapNumbers fits) finite exact
  refine ⟨trip, fun s host roots built => ?_⟩
  have trip := trip (weightsFit_of_build built)
  have lineEnd : Json.Blank "\n".toList := by
    intro c member
    rw [List.mem_singleton.mp member]
    rfl
  refine ⟨emitsAlike_of_eq trip.reread, fun shallow => ?_, fun s roots built => ?_⟩
  · exact emitsAlike_of_eq (trip.pretty shallow "\n" lineEnd)
  · rw [printDesign_of_build built]
    rfl

/-- A turned card with a photo, a blur and corners of its own, around a title. -/
theorem reprinted_of_finite_card :
    let title : Scene.Node := .mk
      { nodeType := "TEXT", characters := some "Hi", fontSize := some 12.5,
        fontWeight := some 650.0, width := 20.0 } []
    let card : Scene.Node := .mk
      { id := "1:1", name := "Card", nodeType := "FRAME", width := 40.0, height := 30.0,
        rotation := -7.5, fills := [.image "a"], cornerRadii := some ⟨1.0, 2.0, 0.5, 0.0⟩,
        effects := [{ effectType := .layerBlur, radius := 4.25 }],
        autoLayout := { mode := .vertical, itemSpacing := 8.0 } } [title]
    let s := Settings.defaults
    let forest := (ofSelection s none [card] .empty).1
    Design.build s none [card] = .ok forest ∧ (forestJson forest).Finite ∧
      (forestJson forest).PrintedExactly ∧ WeightsFit forest ∧
      (forestJson forest).depth ≤ Json.depthLimit ∧
      Json.RoundTrip forestJson forest? forest ∧ Reprinted forest := by
  intro title card s forest
  have built : Design.build s none [card] = .ok forest := rfl
  have finite : (forestJson forest).Finite := by decide +kernel
  have exact : (forestJson forest).PrintedExactly := by decide +kernel
  have fits := weightsFit_of_build built
  have both := reprinted_of_finite finite exact
  exact ⟨built, finite, exact, fits, by decide +kernel, both.1 fits, both.2 s none [card] built⟩

end

end Design

end Handoff
