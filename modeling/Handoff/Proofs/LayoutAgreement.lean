import Handoff.Proofs.Css.Layout
import Handoff.Proofs.Design.ColorNames
import Handoff.Proofs.Tailwind.Layout

/-!
The layout of the two markups.

What the declarations of a node say of its layout is what its classes say.  Both are what the design
says, and differ only in how small a length has to be to be written as zero: less than half a
hundredth of a pixel in a declaration, less than a hundredth in a class.  So they agree unless a
length of a flow lies between (`sameLayout_of_build`).

No color of a palette is called as an alignment of text is (`Palette.name_not_mem`), so the classes
of a text are read as they were meant.
-/

namespace Handoff

namespace Design

theorem ColorRef.LookedUp.unaligned {s : Settings} {c : ColorRef} (looked : c.LookedUp s) :
    Tailwind.Unaligned c := by
  intro m called
  rw [looked] at called
  obtain ⟨e, member, named⟩ := Palette.name_of_nearest? called
  rw [named]
  exact Palette.name_not_mem (by decide) _ e member

end Design

open Design (Node LayoutFacts)

/-! ## Agreement -/

/-- What the declarations of a node inside its parent say of its layout. -/
def declaredLayout (parent : Option Node) (n : Node) : LayoutFacts :=
  Css.layoutFacts (Css.flowAround? parent n) (Css.declarations parent n)

/-- What the classes of a node inside its parent say of its layout. -/
def classLayout (t : Settings) (parent : Option Node) (n : Node) : LayoutFacts :=
  Tailwind.layoutFacts (Css.flowAround? parent n)
    (Tailwind.names (Tailwind.classes t.roundTailwindValues parent n))

/-- The two markups lay a node out as the design does. -/
structure SameLayout (t : Settings) (parent : Option Node) (n : Node) : Prop where
  declared : declaredLayout parent n = n.layoutFacts 0.005 parent
  classes : classLayout t parent n = n.layoutFacts 0.01 parent
  /-- They only differ in which lengths are zero. -/
  alike : (declaredLayout parent n).withoutLengths = (classLayout t parent n).withoutLengths
  /-- They pad the same sides if no padding is between half a hundredth and a hundredth. -/
  padding_iff : (declaredLayout parent n).padding = (classLayout t parent n).padding ↔
    ∀ f, n.box.layout.mode = .flow f → ∀ v ∈ f.padding.lengths, 0.005 ≤ v → 0.01 ≤ v
  /-- They do not differ at all if no gap is so either. -/
  same_iff : declaredLayout parent n = classLayout t parent n ↔
    ∀ f, n.box.layout.mode = .flow f → ∀ v ∈ f.lengths, 0.005 ≤ v → 0.01 ≤ v
  /-- What is placed inside a node is placed against it. -/
  context : n.hasAbsoluteChild = true →
    (declaredLayout parent n).positioning ≠ .static ∧
      (classLayout t parent n).positioning ≠ .static

section

variable {s : Settings} {host : Option Scene.Node} {roots : List Scene.Node} {forest : List Node}

/-- The markups lay a node out alike if it goes together with its parent and its text has no color
that is called as an alignment is. -/
theorem sameLayout_of_laidOut (t : Settings) {parent : Option Node} {n : Node}
    (laid : n.LaidOut parent)
    (unaligned : ∀ c, n.box.style.fills.getLast?.map Design.Paint.fill = some (.solid c) →
      Tailwind.Unaligned c) :
    SameLayout t parent n := by
  have declared : declaredLayout parent n = n.layoutFacts 0.005 parent :=
    Css.layoutFacts_declarations laid
  have classes : classLayout t parent n = n.layoutFacts 0.01 parent :=
    Tailwind.layoutFacts_names laid unaligned
  have between : ∀ f, n.box.layout.mode = .flow f → ∀ v ∈ f.lengths,
      (0.005 ≤ v ↔ 0.01 ≤ v) ↔ (0.005 ≤ v → 0.01 ≤ v) := by
    refine fun f mode v member => ⟨Iff.mp, fun larger => ⟨larger, fun large => ?_⟩⟩
    rcases laid.lengths f mode v member with rfl | positive
    · exact absurd large (by decide +kernel)
    · exact Decimal.half_hundredth_le positive large
  refine ⟨declared, classes, ?alike, ?padding, ?same, fun holds => ?context⟩
  case alike =>
    rw [declared, classes]
    exact n.withoutLengths_layoutFacts 0.005 0.01 parent
  case padding =>
    rw [declared, classes, n.padding_eq_iff]
    exact forall₂_congr fun f mode => forall₂_congr fun v member =>
      between f mode v (List.mem_cons_of_mem _ member)
  case same =>
    rw [declared, classes, laid.layoutFacts_eq_iff (by decide +kernel) (by decide +kernel)]
    exact forall₂_congr fun f mode => forall₂_congr fun v member => between f mode v member
  case context =>
    rw [declared, classes]
    exact ⟨n.positioning_ne_static holds, n.positioning_ne_static holds⟩

/-- The two markups lay out every node of a design alike. -/
theorem sameLayout_of_build (built : Design.build s host roots = .ok forest) (t : Settings) :
    ∀ visit ∈ Node.preorderListUnder none forest, SameLayout t visit.1 visit.2 := by
  rintro ⟨parent, n⟩ member
  refine sameLayout_of_laidOut t (Design.laidOut_of_build built _ member) fun c solid => ?_
  have among : n ∈ Node.preorderList forest := Node.mem_of_mem_preorderListUnder member
  obtain ⟨p, last, fill⟩ := Option.map_eq_some_iff.mp solid
  have used : c ∈ Design.solidUses forest := Design.mem_solidUses.mpr
    ⟨n, among, .inl ⟨p, List.mem_append_left _ (List.mem_of_getLast? last), fill⟩⟩
  exact (Design.lookedUp_of_build built c
    (Design.mem_colorRefsOf_of_mem_solidUses used)).unaligned

/-- A row with a label in it and a badge placed on it. -/
theorem sameLayout_of_build_row :
    let label : Scene.Node := .mk { nodeType := "TEXT", characters := "Hi" } []
    let badge : Scene.Node := .mk { nodeType := "ELLIPSE", positioning := .absolute } []
    let row : Scene.Node := .mk
      { nodeType := "FRAME", autoLayout := { mode := .horizontal, paddingTop := 8.0 } }
      [label, badge]
    let s := Settings.defaults
    let forest := (Design.ofSelection s none [row] .empty).1
    Design.build s none [row] = .ok forest ∧
      ∀ visit ∈ Node.preorderListUnder none forest, SameLayout s visit.1 visit.2 := by
  intro label badge row s forest
  have built : Design.build s none [row] = .ok forest := rfl
  exact ⟨built, sameLayout_of_build built s⟩

/-- A padding of less than a hundredth is declared, but its class is that of zero. -/
theorem not_sameLayout_row :
    let padding : Scene.AutoLayout :=
      { mode := .horizontal, paddingLeft := 0.008, paddingRight := 0.008, paddingTop := 0.008,
        paddingBottom := 0.008 }
    let row : Scene.Node := .mk
      { id := "1:1", name := "Card", nodeType := "FRAME", width := 40.0, height := 20.0,
        autoLayout := padding } []
    let s := { Settings.defaults with framework := .tailwind }
    ∃ n, Design.build s none [row] = .ok [n] ∧
      (declaredLayout none n).padding = ⟨true, true, true, true⟩ ∧
      (classLayout s none n).padding = .none := by
  intro padding row s
  refine ⟨_, rfl, ?_, ?_⟩
  · decide +kernel
  · decide +kernel

end

end Handoff
