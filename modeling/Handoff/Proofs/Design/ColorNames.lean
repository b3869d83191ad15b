import Handoff.Proofs.Text.Alphabet
import Handoff.Proofs.UsedColors

/-!
The names of colors.

A color of a design is called by the name of an entry of a palette, if by any
(`Palette.name_of_nearest?`).  All names of all palettes are spelled with letters, digits, dashes
and points (`Palette.within_name`), so they can stand in code as they are (`named_of_build`).  A
dash or a point is in all of them but black and white, and so they are no plain words
(`Palette.name_not_mem`).
-/

namespace Handoff

open Text (Within within_append isWordChar)

namespace Palette

/-- A color is called by the name of an entry. -/
theorem name_of_nearest? {p : Palette} {c : Color} {tolerance : Float} {m : Match}
    (near : p.nearest? c tolerance = some m) : ∃ e ∈ p.entries, m.name = e.name := by
  have entries : p.swatches = p.entries.filterMap swatch? := by cases p <;> rfl
  have taken : ∀ (lab : Lab) (best : Option (Swatch × Float32)) (next : Swatch)
      (chosen : Swatch × Float32), nearer lab best next = some chosen →
        best = some chosen ∨ chosen.1 = next := by
    intro lab best next chosen taken
    unfold nearer at taken
    dsimp only at taken
    split at taken
    · exact .inr (congrArg Prod.fst (Option.some.inj taken)).symm
    · split at taken
      · exact .inr (congrArg Prod.fst (Option.some.inj taken)).symm
      · exact .inl taken
  unfold nearest? at near
  dsimp only at near
  split at near
  · cases near
  · rename_i s distance found
    have member : s ∈ p.entries.filterMap swatch? := entries ▸ mem_of_best Prod.fst (taken _) found
    obtain ⟨e, listed, made⟩ := List.mem_filterMap.mp member
    split at near
    · cases near
    · obtain ⟨color, -, rfl⟩ := Option.map_eq_some_iff.mp made
      exact ⟨e, listed, (congrArg Match.name (Option.some.inj near)).symm⟩

/-- A shade is named by its family and its number. -/
theorem within_name_familyEntries {family : String × List String}
    (named : Within isWordChar family.1) :
    ∀ e ∈ familyEntries family, Within isWordChar e.name := by
  intro e member
  obtain ⟨i, bound, rfl⟩ := List.mem_iff_getElem.mp member
  simp only [familyEntries, List.getElem_zipWith]
  exact within_append.mpr ⟨within_append.mpr ⟨named, by decide⟩, Text.within_repr _⟩

theorem within_name (p : Palette) : ∀ e ∈ p.entries, Within isWordChar e.name := by
  cases p with
  | tailwind =>
      have table : ∀ family ∈ families, Within isWordChar family.1 := by decide +kernel
      rw [entries, List.forall_mem_cons, List.forall_mem_cons]
      refine ⟨by decide, by decide, fun e member => ?_⟩
      obtain ⟨family, among, shade⟩ := List.mem_flatMap.mp member
      exact within_name_familyEntries (table family among) e shade
  | material => decide +kernel
  | swiftUI => decide +kernel

/-- A shade has a dash in its name, and a color of the other palettes a point. -/
theorem name_marked (p : Palette) : ∀ e ∈ p.entries,
    e.name = "black" ∨ e.name = "white" ∨ '-' ∈ e.name.toList ∨ '.' ∈ e.name.toList := by
  intro e member
  cases p with
  | tailwind =>
      rcases List.mem_cons.mp member with rfl | member
      · exact .inl rfl
      rcases List.mem_cons.mp member with rfl | member
      · exact .inr (.inl rfl)
      obtain ⟨family, -, shade⟩ := List.mem_flatMap.mp member
      obtain ⟨i, bound, rfl⟩ := List.mem_iff_getElem.mp shade
      simp only [familyEntries, List.getElem_zipWith]
      exact .inr (.inr (.inl (by simp [entry])))
  | material =>
      obtain ⟨⟨name, digits⟩, -, rfl⟩ := List.mem_map.mp member
      exact .inr (.inr (.inr (by simp [entry])))
  | swiftUI =>
      obtain ⟨⟨name, digits⟩, -, rfl⟩ := List.mem_map.mp member
      exact .inr (.inr (.inr (by simp [entry])))

/-- No color is called by a word without dashes and points, but for black and white. -/
theorem name_not_mem {words : List String} (plain : ∀ word ∈ words,
      word ≠ "black" ∧ word ≠ "white" ∧ '-' ∉ word.toList ∧ '.' ∉ word.toList) (p : Palette) :
    ∀ e ∈ p.entries, e.name ∉ words := by
  intro e member called
  obtain ⟨notBlack, notWhite, noDash, noPoint⟩ := plain e.name called
  rcases name_marked p e member with black | white | dash | point
  · exact notBlack black
  · exact notWhite white
  · exact noDash dash
  · exact noPoint point

end Palette

namespace Design

/-- A color that is not called by an empty name. -/
def ColorRef.Spelled (c : ColorRef) : Prop := ∀ m, c.palette = some m → m.name ≠ ""

theorem ColorRef.LookedUp.spelled {s : Settings} {c : ColorRef} (looked : c.LookedUp s) :
    c.Spelled := by
  intro m called
  rw [looked] at called
  obtain ⟨e, member, same⟩ := Palette.name_of_nearest? called
  rw [same]
  have other : e.name ∉ [""] := Palette.name_not_mem (by decide) _ e member
  exact fun empty => other (List.mem_singleton.mpr empty)

/-- A color whose name, if it has one, is a word. -/
def ColorRef.Named (c : ColorRef) : Prop := ∀ m, c.palette = some m → Within isWordChar m.name

theorem ColorRef.LookedUp.named {s : Settings} {c : ColorRef} (looked : c.LookedUp s) :
    c.Named := by
  intro m called
  rw [looked] at called
  obtain ⟨e, member, same⟩ := Palette.name_of_nearest? called
  rw [same]
  exact Palette.within_name _ e member

/-- The colors of a fill are called by words. -/
def Fill.Named (f : Fill) : Prop := ∀ c ∈ f.colorRefs, c.Named

theorem Fill.Named.color {c : ColorRef} (named : (Fill.solid c).Named) : c.Named :=
  named c (List.mem_singleton_self c)

theorem Fill.Named.stops {angle : Float} {stops : List GradientStop}
    (named : (Fill.linearGradient angle stops).Named) : ∀ s ∈ stops, s.color.Named :=
  fun s member => named s.color (List.mem_map_of_mem member)

/-- The colors of a box are called by words. -/
def Box.Named (b : Box) : Prop := ∀ c ∈ b.style.colorRefs, c.Named

namespace Box.Named

variable {b : Box} {p : Paint}

theorem paint (named : b.Named) (member : p ∈ b.style.paints) : p.fill.Named :=
  fun c inside => named c (List.mem_append_left _ (List.mem_flatMap.mpr ⟨p, member, inside⟩))

theorem fill (named : b.Named) (member : p ∈ b.style.fills) : p.fill.Named :=
  named.paint (List.mem_append_left _ member)

theorem stroke (named : b.Named) (member : p ∈ b.style.strokes) : p.fill.Named :=
  named.paint (List.mem_append_right _ member)

theorem lastFill (named : b.Named) {fill : Fill}
    (top : b.style.fills.getLast?.map Paint.fill = some fill) : fill.Named := by
  obtain ⟨p, last, rfl⟩ := Option.map_eq_some_iff.mp top
  exact named.fill (List.mem_of_getLast? last)

theorem lastStroke (named : b.Named) {fill : Fill}
    (top : b.style.strokes.getLast?.map Paint.fill = some fill) : fill.Named := by
  obtain ⟨p, last, rfl⟩ := Option.map_eq_some_iff.mp top
  exact named.stroke (List.mem_of_getLast? last)

theorem effect (named : b.Named) {e : Effect} (member : e ∈ b.style.effects) {c : ColorRef}
    (color : e.color? = some c) : c.Named :=
  named c (List.mem_append_right _ (List.mem_filterMap.mpr ⟨e, member, color⟩))

theorem topStroke (named : b.Named) {c : ColorRef} (top : b.style.topSolidStroke? = some c) :
    c.Named := by
  obtain ⟨p, member, solid⟩ := List.exists_of_findSome?_eq_some top
  have stroke := named.stroke (List.mem_reverse.mp member)
  rw [Paint.solid?_eq_some_iff.mp solid] at stroke
  exact stroke.color

end Box.Named

/-- The colors of a design are called by words. -/
theorem named_of_build {s : Settings} {host : Option Scene.Node} {roots : List Scene.Node}
    {forest : List Node} (built : build s host roots = .ok forest) :
    ∀ n ∈ Node.preorderList forest, n.box.Named :=
  fun n member c among =>
    (lookedUp_of_build built c (List.mem_flatMap.mpr ⟨n, member, among⟩)).named

/-- None of the colors of a design is called by an empty name. -/
theorem spelled_of_build {s : Settings} {host : Option Scene.Node} {roots : List Scene.Node}
    {forest : List Node} (built : build s host roots = .ok forest) :
    ∀ n ∈ Node.preorderList forest, ∀ c ∈ n.box.style.colorRefs, c.Spelled :=
  fun n member c among =>
    (lookedUp_of_build built c (List.mem_flatMap.mpr ⟨n, member, among⟩)).spelled

end Design

end Handoff
