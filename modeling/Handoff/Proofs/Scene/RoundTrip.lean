import Handoff.Scene.Json
import Handoff.Proofs.Json.Reading

/-!
Scenes written as JSON and read again.

Each record of a scene is decoded from the fields it is written with (`StrictCodec`), also when
their numbers are spelled in another way, and so is a node, whose auto layout stands among its
own fields and whose children may nest to any depth.  The main statement is
`Node.roundTrip_of_finite`.
-/

namespace Handoff

open Json (StrictCodec)

/-! ## Records -/

instance : StrictCodec Color.toJson Color.ofJson? where
  wellNamed c := by simp [Color.toJson]
  restored := by
    intro f c kept
    simp only [Color.toJson, Json.kept_obj, List.forall_mem_cons] at kept
    simp [Color.toJson, Color.ofJson?, kept]
  strict := rfl

namespace Scene

instance {α : Type} [Vocabulary α] : StrictCodec (wordJson (α := α)) word? where
  wellNamed a := by simp [wordJson, Vocabulary.toJson]
  restored := by
    intro f a _
    rw [wordJson, Vocabulary.toJson, Json.mapNumbers, word?, Vocabulary.ofJson?, Json.tag?,
      Option.map_some, Vocabulary.ofWord_word]
  strict := rfl

instance : StrictCodec Point.toJson Point.ofJson? where
  wellNamed p := by simp [Point.toJson]
  restored := by
    intro f p kept
    simp only [Point.toJson, Json.kept_obj, List.forall_mem_cons] at kept
    simp [Point.toJson, Point.ofJson?, kept]
  strict := rfl

instance : StrictCodec ColorStop.toJson ColorStop.ofJson? where
  wellNamed s := by simp [ColorStop.toJson]
  restored := by
    intro f s kept
    simp only [ColorStop.toJson, Json.kept_obj, List.forall_mem_cons] at kept
    simp [ColorStop.toJson, ColorStop.ofJson?, kept]
  strict := rfl

instance : StrictCodec Paint.toJson Paint.ofJson? where
  wellNamed p := by simp [Paint.toJson]
  restored := by
    intro f p kept
    simp only [Paint.toJson, Json.kept_obj, List.forall_mem_cons] at kept
    simp [Paint.toJson, Paint.ofJson?, kept]
  strict := rfl

instance : StrictCodec Effect.toJson Effect.ofJson? where
  wellNamed e := by simp [Effect.toJson]
  restored := by
    intro f e kept
    simp only [Effect.toJson, Json.kept_obj, List.forall_mem_cons] at kept
    simp [Effect.toJson, Effect.ofJson?, kept]
  strict := rfl

instance : StrictCodec AutoLayout.toJson AutoLayout.ofJson? where
  wellNamed a := by simp [AutoLayout.toJson, AutoLayout.entries]
  restored := by
    intro f a kept
    simp only [AutoLayout.toJson, AutoLayout.entries, Json.kept_obj, List.forall_mem_cons] at kept
    simp [AutoLayout.toJson, AutoLayout.entries, AutoLayout.ofJson?, AutoLayout.ofFields?, kept]
  strict := rfl

instance : StrictCodec FontName.toJson FontName.ofJson? where
  wellNamed n := by simp [FontName.toJson]
  restored := by
    intro f n kept
    simp [FontName.toJson, FontName.ofJson?]
  strict := rfl

instance : StrictCodec LineHeight.toJson LineHeight.ofJson? where
  wellNamed h := by simp [LineHeight.toJson]
  restored := by
    intro f h kept
    simp only [LineHeight.toJson, Json.kept_obj, List.forall_mem_cons] at kept
    simp [LineHeight.toJson, LineHeight.ofJson?, kept]
  strict := rfl

instance : StrictCodec LetterSpacing.toJson LetterSpacing.ofJson? where
  wellNamed s := by simp [LetterSpacing.toJson]
  restored := by
    intro f s kept
    simp only [LetterSpacing.toJson, Json.kept_obj, List.forall_mem_cons] at kept
    simp [LetterSpacing.toJson, LetterSpacing.ofJson?, kept]
  strict := rfl

instance : StrictCodec Corners.toJson Corners.ofJson? where
  wellNamed c := by simp [Corners.toJson]
  restored := by
    intro f c kept
    have list := Json.list?_mapNumbers kept
    rw [Corners.ofJson?, Corners.toJson, list]
    rfl
  strict := rfl

/-! ## Nodes -/

namespace Layer

variable {f : Json → Json} {l : Layer} {more : List (String × Json)} {json : Json}

/-- Whatever other fields there are, a layer is decoded from its own. -/
theorem ofFields?_mapFields (kept : ∀ field ∈ l.entries, field.2.Kept f) (named : Bool) :
    ofFields? ⟨Json.mapFields f (l.entries ++ more), named⟩ = some l := by
  simp only [entries, AutoLayout.entries, List.forall_mem_append, List.forall_mem_cons] at kept
  simp [entries, AutoLayout.entries, ofFields?, AutoLayout.ofFields?, kept]

/-- The children of a node have a name of their own. -/
theorem nodup_names : ((l.entries ++ [("children", json)]).map (·.1)).Nodup := by
  simp [entries, AutoLayout.entries]

theorem wellNamed_entries : ∀ field ∈ l.entries, field.2.WellNamed := by
  simp [entries, AutoLayout.entries]

theorem ne_children : ∀ field ∈ l.entries, field.1 ≠ "children" := by
  simp [entries, AutoLayout.entries]

end Layer

namespace Node

variable {f : Json → Json} {forest : List Node}

/-- Induction on a forest: what holds of the forest below a node and of the trees after it
holds with the node in front. -/
theorem forestInduction {motive : List Node → Prop} (nil : motive [])
    (cons : ∀ layer children rest, motive children → motive rest →
      motive (.mk layer children :: rest)) (forest : List Node) : motive forest :=
  @Node.rec_1 (fun n => ∀ rest, motive rest → motive (n :: rest)) motive
    (fun layer children below rest later => cons layer children rest below later) nil
    (fun _ rest first later => first rest later) forest

/-- The children are found behind fields of other names. -/
theorem childrenOfEntries?_append {before : List (String × Json)} {items : List Json}
    (others : ∀ field ∈ before, field.1 ≠ "children") :
    childrenOfEntries? (before ++ [("children", .arr items)]) = listOfJson? items := by
  induction before with
  | nil => rfl
  | cons field before ih =>
      obtain ⟨other, others⟩ := List.forall_mem_cons.mp others
      rw [List.cons_append, childrenOfEntries?.eq_def]
      dsimp only
      rw [if_neg other]
      exact ih others

theorem wellNamed_listToJson : ∀ item ∈ listToJson forest, item.WellNamed := by
  induction forest using forestInduction with
  | nil => exact List.forall_mem_nil _
  | cons layer children rest below after =>
      refine List.forall_mem_cons.mpr ⟨?_, after⟩
      rw [toJson, Json.wellNamed_obj, List.forall_mem_append, List.forall_mem_singleton,
        Json.wellNamed_arr]
      exact ⟨Layer.nodup_names, Layer.wellNamed_entries, below⟩

/-- Nodes are decoded from their encodings, however deep they nest. -/
theorem listOfJson?_mapItems (kept : ∀ item ∈ listToJson forest, item.Kept f) :
    listOfJson? (Json.mapItems f (listToJson forest)) = some forest := by
  induction forest using forestInduction with
  | nil => rfl
  | cons layer children rest below after =>
      rw [listToJson, List.forall_mem_cons, toJson, Json.kept_obj, List.forall_mem_append,
        List.forall_mem_singleton, Json.kept_arr] at kept
      obtain ⟨⟨own, inner⟩, others⟩ := kept
      have node : ofJson? ((mk layer children).toJson.mapNumbers f) = some (mk layer children) := by
        have inside : childrenOfEntries? (Json.mapFields f (layer.entries ++
            [("children", .arr (listToJson children))])) = some children := by
          rw [Json.mapFields_append]
          refine (childrenOfEntries?_append ?_).trans (below inner)
          exact Json.forall_mem_mapFields (P := (· ≠ "children")).mpr Layer.ne_children
        rw [toJson, Json.mapNumbers, ofJson?, Layer.ofFields?_mapFields own true, inside]
        rfl
      rw [listToJson, Json.mapItems, listOfJson?, node, after others]
      rfl

instance : StrictCodec toJson ofJson? where
  wellNamed n := @wellNamed_listToJson [n] _ List.mem_cons_self
  restored := by
    intro f n kept
    have single := @listOfJson?_mapItems f [n] (List.forall_mem_singleton.mpr kept)
    simp only [listToJson, Json.mapItems, listOfJson?] at single
    cases decoded : ofJson? (n.toJson.mapNumbers f) with
    | none =>
        rw [decoded] at single
        cases single
    | some m =>
        rw [decoded] at single
        cases single
        rfl
  strict := rfl

/-- A node as JSON and as the text of it. -/
structure RoundTrip (n : Node) : Prop extends Json.RoundTrip toJson ofJson? n where
  /-- Whatever a node was decoded from, to encode and decode it changes nothing. -/
  identity : ∀ json, ofJson? json = some n →
    (ofJson? json).bind (fun m => ofJson? m.toJson.reread) = ofJson? json
  /-- What has been decoded and encoded once stays as it is. -/
  fixed : ∀ json, ofJson? json = some n → ∀ encoded, (ofJson? json).map toJson = some encoded →
    (ofJson? encoded.reread).map toJson = some encoded

/-- A node whose numbers are finite is had again from its JSON, however deep it nests. -/
theorem roundTrip_of_finite {n : Node} (finite : n.toJson.Finite)
    (exact : n.toJson.PrintedExactly) : RoundTrip n := by
  have trip : Json.RoundTrip toJson ofJson? n :=
    Json.roundTrip_of_restored (Json.Codec.wellNamed n) (fun _ => Json.Codec.restored) finite exact
  refine ⟨trip, ?_, ?_⟩
  · intro json decoded
    rw [decoded]
    exact trip.reread
  · rintro json decoded encoded written
    rw [decoded] at written
    obtain rfl := Option.some.inj written
    rw [trip.reread]
    rfl

/-- A row with a gradient, around a text with a shadow of a kind that is not known. -/
theorem roundTrip_of_finite_row :
    let blue : Color := Color.rgb 0.1 0.2 1.0
    let gradient : Paint := .linear .zero ⟨1.0, 0.5⟩ [⟨0.25, blue⟩]
    let label : Node := .mk
      { nodeType := "TEXT", name := "\"Hi\"\n", characters := some "Hi", fontSize := some 12.5,
        effects := [{ effectType := .unknown, color := some blue }],
        lineHeight := some ⟨.pixels, 1e21⟩ } []
    let row : Node := .mk
      { id := "1:1", fills := [gradient], cornerRadii := some ⟨1.0, -2.5, 1e-7, 0.0⟩,
        autoLayout := { mode := .horizontal, itemSpacing := 8.0 },
        inferredAutoLayout := some {} } [label]
    row.toJson.Finite ∧ row.toJson.PrintedExactly ∧ row.toJson.depth ≤ Json.depthLimit ∧
      RoundTrip row := by
  intro blue gradient label row
  have finite : row.toJson.Finite := by decide +kernel
  have exact : row.toJson.PrintedExactly := by decide +kernel
  exact ⟨finite, exact, by decide +kernel, roundTrip_of_finite finite exact⟩

end Node

end Scene

end Handoff
