import Handoff.Design.UsedColors
import Handoff.Proofs.Design.WellFormed
import Handoff.Proofs.Distinct

/-!
The colors and gradients of a design, each told once.

The list that is shown keeps of all uses of a color the first, and takes colors to be the same if
their bytes are.  The color that is shown is the one of the first use, and with it the palette
entry that the first use is called by.  No use loses its name for that: every color of a design
was looked up in one palette (`lookedUp_of_build`), and a palette only looks at the bytes of a
color (`Palette.nearest?_congr`).

The main statement is `usedOnce_of_build`.
-/

namespace Handoff

/-- A palette looks at the bytes of a color, and not at that of its alpha channel. -/
theorem Palette.nearest?_congr (p : Palette) {c d : Color} (r : c.bytes.r = d.bytes.r)
    (g : c.bytes.g = d.bytes.g) (b : c.bytes.b = d.bytes.b) (tolerance : Float) :
    p.nearest? c tolerance = p.nearest? d tolerance := by
  simp only [Palette.nearest?, r, g, b]

namespace Design

open Scene (Layer)

/-! ## Uses -/

/-- The colors of a fill, those of the stops of a gradient among them. -/
def Fill.colorRefs : Fill → List ColorRef
  | solid color => [color]
  | linearGradient _ stops => stops.map (·.color)
  | image _ _ => []

/-- All colors of a style, wherever they are. -/
def Style.colorRefs (s : Style) : List ColorRef :=
  s.paints.flatMap (·.fill.colorRefs) ++ s.effects.filterMap Effect.color?

/-- All colors of a forest, wherever they are. -/
def colorRefsOf (forest : List Node) : List ColorRef :=
  (Node.preorderList forest).flatMap (·.box.style.colorRefs)

/-- The uses of colors on their own in the order in which a forest is walked: of a node the
fills, then the strokes, then the shadows. -/
def solidUses (forest : List Node) : List ColorRef :=
  (Node.preorderList forest).flatMap fun n =>
    n.box.style.fills.filterMap Paint.solid? ++ n.box.style.strokes.filterMap Paint.solid? ++
      n.box.style.effects.filterMap Effect.color?

/-- The uses of gradients in the order in which a forest is walked. -/
def gradientUses (forest : List Node) : List Gradient :=
  (Node.preorderList forest).flatMap fun n =>
    n.box.style.fills.filterMap Paint.gradient? ++ n.box.style.strokes.filterMap Paint.gradient?

theorem Paint.solid?_eq_some_iff {p : Paint} {c : ColorRef} :
    p.solid? = some c ↔ p.fill = .solid c := by
  obtain ⟨fill, opacity, blendMode⟩ := p
  cases fill <;> simp [Paint.solid?]

theorem Paint.gradient?_eq_some_iff {p : Paint} {g : Gradient} :
    p.gradient? = some g ↔ p.fill = .linearGradient g.angle g.stops := by
  obtain ⟨fill, opacity, blendMode⟩ := p
  obtain ⟨angle, stops⟩ := g
  cases fill <;> simp [Paint.gradient?]

theorem Effect.color?_eq_some_iff {e : Effect} {c : ColorRef} :
    e.color? = some c ↔
      ∃ shadow : Shadow, (e = .dropShadow shadow ∨ e = .innerShadow shadow) ∧ shadow.color = c := by
  cases e <;> simp [Effect.color?]

section

variable {forest : List Node}

theorem mem_solidUses {c : ColorRef} :
    c ∈ solidUses forest ↔ ∃ n ∈ Node.preorderList forest,
      (∃ p ∈ n.box.style.fills ++ n.box.style.strokes, p.fill = .solid c) ∨
        ∃ shadow : Shadow, (.dropShadow shadow ∈ n.box.style.effects ∨
          .innerShadow shadow ∈ n.box.style.effects) ∧ shadow.color = c := by
  simp only [solidUses, List.mem_flatMap, ← List.filterMap_append, List.mem_append,
    List.mem_filterMap, Paint.solid?_eq_some_iff, Effect.color?_eq_some_iff]
  refine exists_congr fun n => and_congr_right fun _ => or_congr_right ?_
  constructor
  · rintro ⟨e, member, shadow, rfl | rfl, same⟩
    · exact ⟨shadow, .inl member, same⟩
    · exact ⟨shadow, .inr member, same⟩
  · rintro ⟨shadow, member | member, same⟩
    · exact ⟨_, member, shadow, .inl rfl, same⟩
    · exact ⟨_, member, shadow, .inr rfl, same⟩

theorem mem_gradientUses {g : Gradient} :
    g ∈ gradientUses forest ↔ ∃ n ∈ Node.preorderList forest,
      ∃ p ∈ n.box.style.fills ++ n.box.style.strokes,
        p.fill = .linearGradient g.angle g.stops := by
  simp only [gradientUses, List.mem_flatMap, ← List.filterMap_append, List.mem_filterMap,
    Paint.gradient?_eq_some_iff]

theorem solids_ofForest (forest : List Node) :
    (UsedColors.ofForest forest).solids = distinctBy (·.color.bytes) (solidUses forest) := by
  simp only [UsedColors.ofForest, solidUses, Style.colors, Style.paints, List.filterMap_append]

theorem gradients_ofForest (forest : List Node) :
    (UsedColors.ofForest forest).gradients = distinctBy Gradient.css (gradientUses forest) := by
  simp only [UsedColors.ofForest, gradientUses, Style.gradients, Style.paints,
    List.filterMap_append]

/-- What is used on its own is among all colors. -/
theorem mem_colorRefsOf_of_mem_solidUses {c : ColorRef} (member : c ∈ solidUses forest) :
    c ∈ colorRefsOf forest := by
  obtain ⟨n, among, used⟩ := List.mem_flatMap.mp member
  refine List.mem_flatMap.mpr ⟨n, among, ?_⟩
  rw [← List.filterMap_append] at used
  rcases List.mem_append.mp used with paint | shadow
  · obtain ⟨p, source, solid⟩ := List.mem_filterMap.mp paint
    refine List.mem_append_left _ (List.mem_flatMap.mpr ⟨p, source, ?_⟩)
    rw [Paint.solid?_eq_some_iff.mp solid]
    exact List.mem_singleton_self c
  · exact List.mem_append_right _ shadow

end

/-! ## Names -/

/-- A color as the settings have it looked up. -/
def ColorRef.LookedUp (s : Settings) (c : ColorRef) : Prop :=
  c = s.colorRef c.color

/-- Colors that are looked up under the same settings have the same name if they have the same
bytes. -/
theorem ColorRef.LookedUp.palette_eq {s : Settings} {c d : ColorRef} (first : c.LookedUp s)
    (second : d.LookedUp s) (same : c.color.bytes = d.color.bytes) : c.palette = d.palette := by
  rw [first, second]
  exact Palette.nearest?_congr _ (by rw [same]) (by rw [same]) (by rw [same]) _

end Design

namespace Scene

open Design (ColorRef)

theorem Paint.Becomes.lookedUp {s : Settings} {width height : Float} {p : Paint}
    {q : Design.Paint} (becomes : p.Becomes s width height q) :
    ∀ c ∈ q.fill.colorRefs, c.LookedUp s := by
  cases becomes with
  | color type => exact List.forall_mem_singleton.mpr rfl
  | gradient type present =>
      intro c member
      simp only [Design.Fill.colorRefs, List.map_map] at member
      obtain ⟨stop, -, rfl⟩ := List.mem_map.mp member
      rfl
  | image type => exact fun c member => nomatch member

theorem Effect.Becomes.lookedUp {s : Settings} {e : Effect} {q : Design.Effect}
    (becomes : e.Becomes s q) : ∀ c, q.color? = some c → c.LookedUp s := by
  cases becomes with
  | dropShadow type | innerShadow type =>
      rintro c ⟨⟩
      rfl
  | layerBlur type | backgroundBlur type => exact fun c absent => nomatch absent

/-- Every color of a style was looked up under the settings. -/
theorem Layer.lookedUp_style (s : Settings) (kind : Design.Kind) (l : Layer) :
    ∀ c ∈ (l.style s kind).colorRefs, c.LookedUp s := by
  have paints : ∀ (source : List Paint) (q : Design.Paint),
      q ∈ counterparts (source.map (·.toDesign s l.width l.height)) →
        ∀ c ∈ q.fill.colorRefs, c.LookedUp s := by
    intro source q member
    obtain ⟨p, -, made⟩ := exists_of_mem_counterparts member
    have answer := p.answer_toDesign s l.width l.height
    rw [made] at answer
    exact answer.2.lookedUp
  intro c member
  rcases List.mem_append.mp member with paint | shadow
  · obtain ⟨q, among, inside⟩ := List.mem_flatMap.mp paint
    rcases List.mem_append.mp among with fill | stroke
    · exact paints _ q fill c inside
    · rw [Layer.style, l.strokeResults_eq s] at stroke
      exact paints _ q stroke c inside
  · obtain ⟨q, among, given⟩ := List.mem_filterMap.mp shadow
    obtain ⟨e, -, made⟩ := exists_of_mem_counterparts among
    have answer := e.answer_toDesign s
    rw [made] at answer
    exact answer.2.lookedUp c given

end Scene

namespace Design

section

variable {s : Settings} {host : Option Scene.Node} {roots : List Scene.Node} {forest : List Node}

/-- Every color of a design was looked up under the settings. -/
theorem lookedUp_of_build (built : Design.build s host roots = .ok forest) :
    ∀ c ∈ colorRefsOf forest, c.LookedUp s := by
  obtain ⟨rfl, -⟩ := build_eq_ok built
  have box : ∀ (o : Outline) (around : Surroundings) (name : String),
      ∀ c ∈ (o.box s around name).style.colorRefs, c.LookedUp s := by
    intro o around name
    unfold Outline.box Outline.style
    cases o.layer.kind? with
    | some kind => exact o.layer.lookedUp_style s kind
    | none => exact fun c member => nomatch member
  have follows : Node.FollowsAll (fun _ _ box => ∀ c ∈ box.style.colorRefs, c.LookedUp s) none
      (Scene.shownForest roots) (ofSelection s host roots .empty).1 :=
    followsAll_ofSelection s host roots .empty (fun o _ name => box o (.ofParent s host) name)
      (fun o _ above name => box o (.inside above.layout.mode) name)
  intro c member
  obtain ⟨n, among, inside⟩ := List.mem_flatMap.mp member
  obtain ⟨source, -, above, agrees⟩ := follows.exists_source n among
  cases source with
  | mk layer sources =>
      cases n with
      | mk box children => exact agrees.1 c inside

/-- The colors and gradients of a forest are told once. -/
structure UsedOnce (forest : List Node) : Prop where
  solids : Firsts (·.color.bytes) (solidUses forest) (UsedColors.ofForest forest).solids
  gradients : Firsts Gradient.css (gradientUses forest) (UsedColors.ofForest forest).gradients
  /-- The uses of a color are the fills and strokes of that one color and the shadows. -/
  solid : ∀ c, c ∈ solidUses forest ↔ ∃ n ∈ Node.preorderList forest,
    (∃ p ∈ n.box.style.fills ++ n.box.style.strokes, p.fill = .solid c) ∨
      ∃ shadow : Shadow, (.dropShadow shadow ∈ n.box.style.effects ∨
        .innerShadow shadow ∈ n.box.style.effects) ∧ shadow.color = c
  gradient : ∀ g, g ∈ gradientUses forest ↔ ∃ n ∈ Node.preorderList forest,
    ∃ p ∈ n.box.style.fills ++ n.box.style.strokes, p.fill = .linearGradient g.angle g.stops
  /-- Colors with the same bytes are called by the same name, in gradients too. -/
  name : ∀ c ∈ colorRefsOf forest, ∀ d ∈ colorRefsOf forest,
    c.color.bytes = d.color.bytes → c.palette = d.palette
  /-- So every use has its name in the list. -/
  kept : ∀ c ∈ solidUses forest, ∃ d ∈ (UsedColors.ofForest forest).solids,
    d.color.bytes = c.color.bytes ∧ d.palette = c.palette

/-- Every design has its colors and gradients told once, in the order of their first uses, and
no use loses its name for it. -/
theorem usedOnce_of_build (built : Design.build s host roots = .ok forest) : UsedOnce forest := by
  have looked := lookedUp_of_build built
  have solids : Firsts (·.color.bytes) (solidUses forest) (UsedColors.ofForest forest).solids := by
    rw [solids_ofForest]
    exact firsts_distinctBy _ _
  constructor
  case solids => exact solids
  case gradients =>
    rw [gradients_ofForest]
    exact firsts_distinctBy _ _
  case solid => exact fun c => mem_solidUses
  case gradient => exact fun g => mem_gradientUses
  case name => exact fun c first d second same => (looked c first).palette_eq (looked d second) same
  case kept =>
    intro c used
    obtain ⟨d, listed, same⟩ := solids.exists_mem used
    have first := looked d (mem_colorRefsOf_of_mem_solidUses (solids.mem listed))
    have second := looked c (mem_colorRefsOf_of_mem_solidUses used)
    exact ⟨d, listed, same, first.palette_eq second same⟩

/-- A card with a red that is a fraction of a byte off the red of its shadow, and a gradient from
it. -/
theorem usedOnce_of_build_card :
    let red : Color := .rgb 1.0 0.0 0.0
    let nearlyRed : Color := .rgb 0.9999 0.0 0.0
    let gradient : Scene.Paint :=
      { paintType := .gradientLinear, gradientStops := [⟨0.0, red⟩, ⟨1.0, .white⟩] }
    let card : Scene.Node :=
      .mk { nodeType := "FRAME", strokeWeight := 1.0
            fills := [{ color := some nearlyRed }, gradient]
            strokes := [{ color := some .white }]
            effects := [{ effectType := .dropShadow, color := some red }] } []
    let s := Settings.defaults
    let forest := (Design.ofSelection s none [card] .empty).1
    Design.build s none [card] = .ok forest ∧
      (solidUses forest).map (·.color.bytes) =
        [⟨255, 0, 0, 255⟩, ⟨255, 255, 255, 255⟩, ⟨255, 0, 0, 255⟩] ∧
      UsedOnce forest := by
  intro red nearlyRed gradient card s forest
  have built : Design.build s none [card] = .ok forest := rfl
  exact ⟨built, by decide +kernel, usedOnce_of_build built⟩

end

end Design

end Handoff
