import Handoff.Css.Node
import Handoff.Proofs.Decimal.Thresholds
import Handoff.Proofs.Design.Coherence
import Handoff.Proofs.Design.Preorder
import Handoff.Proofs.Design.WellFormed

/-!
What is said of the layout of a node.

`LayoutFacts` is what a style says of the layout of a box, without the lengths: of a length only
is kept whether it is zero.  A writer that rounds has its own idea of that, so
`Node.layoutFacts least`, which is what a design says of a node inside its parent, takes the least
length that counts.

What the writers take for granted about a node and its parent is in `Node.LaidOut`, and every
node of a design is laid out so (`laidOut_of_build`).
-/

namespace Handoff.Design

/-! ## Facts -/

/-- Whether a box has a place of its own. -/
inductive Positioning where
  | static
  /-- It stays where it is, and what is placed inside is placed against it. -/
  | context
  /-- It is placed at an offset, if there is one, from the left and from the top. -/
  | offset (left top : Bool)
deriving DecidableEq, Repr

/-- How the size of a box on an axis comes about. -/
inductive SizeCase where
  /-- Nothing is said of it. -/
  | natural
  | fixed
  /-- All of the container. -/
  | whole
  /-- The space that is left over along the flow of the container. -/
  | grows
  /-- The space across the flow of the container. -/
  | stretches
deriving DecidableEq, Repr

/-- The sides of a box. -/
structure Sides where
  top : Bool
  right : Bool
  bottom : Bool
  left : Bool
deriving DecidableEq, Repr

/-- No side at all. -/
def Sides.none : Sides := ⟨false, false, false, false⟩

/-- What is said of a flex container. -/
structure FlexFacts where
  direction : Direction
  distribution : Distribution
  alignment : Option Alignment
  /-- Whether there is a gap, and whether it is more than zero. -/
  gap : Option Bool
  wraps : Bool
deriving DecidableEq, Repr

/-- What is said of the layout of a box. -/
structure LayoutFacts where
  positioning : Positioning
  flex : Option FlexFacts
  /-- The sides that have a padding of more than zero. -/
  padding : Sides
  width : SizeCase
  height : SizeCase
  /-- Whether the box keeps its size where there is too little space. -/
  rigid : Bool
  textAlign : TextAlign
  /-- Whether text stays on one line. -/
  unbroken : Bool
  clips : Bool
  /-- The degrees of a rotation clockwise, as they are written. -/
  rotation : Option String
  /-- Whether the box turns about its top left corner. -/
  aboutCorner : Bool
deriving DecidableEq, Repr

/-- The facts without those about lengths. -/
def LayoutFacts.withoutLengths (f : LayoutFacts) : LayoutFacts :=
  { f with
    flex := f.flex.map fun flex => { flex with gap := flex.gap.map fun _ => true }
    padding := .none }

/-- The size case that is read from a size, if one is said, and from what is said of the space that
the container has to give. -/
def SizeCase.read (size : Option String) (all : String) (along grows stretches : Bool) : SizeCase :=
  match size with
  | some v => if v = all then .whole else .fixed
  | none =>
    if along then if grows then .grows else .natural
    else if stretches then .stretches else .natural

/-! ## Aspects -/

/-- The aspects of a node that are styled one after another. -/
inductive Aspect where
  | placement
  | flow
  | size
  | text
  | paint
  | corners
  | effects
  | finish
deriving DecidableEq, Repr

/-- All aspects in their order. -/
def Aspect.all : List Aspect :=
  [.placement, .flow, .size, .text, .paint, .corners, .effects, .finish]

theorem Aspect.mem_all (a : Aspect) : a ∈ all := by
  cases a <;> decide

/-! ## What a design says -/

/-- The lengths of a padding. -/
def Padding.lengths (p : Padding) : List Float := [p.top, p.right, p.bottom, p.left]

/-- The lengths of a flow. -/
def Flow.lengths (f : Flow) : List Float := f.gap :: f.padding.lengths

/-- What a flow says of its container. -/
def Flow.flexFacts (least : Float) (f : Flow) : FlexFacts where
  direction := f.direction
  distribution := f.distribution
  alignment := some f.alignment
  gap := if f.gap > 0.0 then some (least ≤ f.gap) else none
  wraps := f.wraps

/-- The sides of a padding that count. -/
def Padding.sides (least : Float) (p : Padding) : Sides :=
  ⟨least ≤ p.top, least ≤ p.right, least ≤ p.bottom, least ≤ p.left⟩

theorem Padding.sides_of_isZero {least : Float} (some : ¬least ≤ 0.0) {p : Padding}
    (zero : p.isZero = true) : p.sides least = .none := by
  simp only [Padding.isZero, Bool.and_eq_true] at zero
  obtain ⟨⟨⟨top, right⟩, bottom⟩, left⟩ := zero
  simp only [Padding.sides, Decimal.le_congr top, Decimal.le_congr right,
    Decimal.le_congr bottom, Decimal.le_congr left, some]
  rfl

theorem Padding.sides_of_isUniform {p : Padding} (uniform : p.isUniform = true) (least : Float) :
    p.sides least = ⟨least ≤ p.top, least ≤ p.top, least ≤ p.top, least ≤ p.top⟩ := by
  simp only [Padding.isUniform, Bool.and_eq_true] at uniform
  obtain ⟨⟨first, second⟩, third⟩ := uniform
  simp only [Padding.sides, Decimal.le_congr first, Decimal.le_congr second, Decimal.le_congr third]

theorem Padding.sides_of_isSymmetric {p : Padding} (symmetric : p.isSymmetric = true)
    (least : Float) :
    p.sides least = ⟨least ≤ p.top, least ≤ p.left, least ≤ p.top, least ≤ p.left⟩ := by
  simp only [Padding.isSymmetric, Bool.and_eq_true] at symmetric
  simp only [Padding.sides, Decimal.le_congr symmetric.1, Decimal.le_congr symmetric.2]

/-- A column that only pushes text down. -/
def pushedDown (distribution : Distribution) : FlexFacts :=
  ⟨.vertical, distribution, none, none, false⟩

/-- What a text says of the box around it: it pushes down in a fixed height. -/
def Node.textFlex? (n : Node) (t : Typography) : Option FlexFacts :=
  if n.box.layout.sizing.vertical.fixed?.isSome then
    match t.alignVertical with
    | .top => none
    | .center => some (pushedDown .center)
    | .bottom => some (pushedDown .finish)
  else none

/-- What a node says of itself as a flex container. -/
def Node.flexFacts? (least : Float) (n : Node) : Option FlexFacts :=
  match n.box.layout.mode with
  | .flow f => some (f.flexFacts least)
  | .absolute => n.box.style.text.bind fun t => n.textFlex? t.typography

/-- The positioning of a node. -/
def Node.positioning (n : Node) : Positioning :=
  match n.box.layout.placement with
  | .absolute _ _ => .offset true true
  | _ => if n.hasAbsoluteChild then .context else .static

/-- The size case of a node on an axis. -/
def Node.sizeCase (parent : Option Node) (n : Node) (axis : Direction) : SizeCase :=
  match n.box.layout.sizing.along axis with
  | .fixed _ => .fixed
  | .hug => .natural
  | .fill =>
    match n.box.layout.placement with
    | .root => .whole
    | _ => if Css.flowAround? parent n = some axis then .grows else .stretches

/-- What a design says of the layout of a node inside its parent. -/
def Node.layoutFacts (least : Float) (parent : Option Node) (n : Node) : LayoutFacts where
  positioning := n.positioning
  flex := n.flexFacts? least
  padding := (n.box.layout.flow?.map (·.padding.sides least)).getD .none
  width := n.sizeCase parent .horizontal
  height := n.sizeCase parent .vertical
  rigid := (Css.flowAround? parent n).any fun axis =>
    (n.box.layout.sizing.along axis).fixed?.isSome
  textAlign := (n.box.style.text.map (·.typography.align)).getD .left
  unbroken := n.box.style.text.isSome && n.box.layout.sizing.horizontal.isHug
  clips := n.box.style.clipsContent
  rotation :=
    if n.box.geometry.rotation != 0.0 then some (Decimal.plain (-n.box.geometry.rotation)) else none
  aboutCorner := n.box.geometry.rotation != 0.0

theorem Node.positioning_ne_static {n : Node} (holds : n.hasAbsoluteChild = true) :
    n.positioning ≠ .static := by
  unfold Node.positioning
  split
  · exact nofun
  · rw [if_pos holds]
    exact nofun

/-- Facts with another idea of zero differ in lengths only. -/
theorem Node.withoutLengths_layoutFacts (a b : Float) (parent : Option Node) (n : Node) :
    (n.layoutFacts a parent).withoutLengths = (n.layoutFacts b parent).withoutLengths := by
  have flex : (n.flexFacts? a).map (fun f => { f with gap := f.gap.map fun _ => true }) =
      (n.flexFacts? b).map fun f => { f with gap := f.gap.map fun _ => true } := by
    unfold Node.flexFacts?
    cases n.box.layout.mode with
    | absolute => rfl
    | flow f =>
        simp only [Flow.flexFacts, Option.map_some, Option.map_if]
  simp only [LayoutFacts.withoutLengths, Node.layoutFacts, flex]

/-! ## What the writers take for granted -/

/-- A node goes together with its parent and with itself. -/
structure Node.LaidOut (parent : Option Node) (n : Node) : Prop where
  /-- Only roots and what flows take space that there is to give. -/
  fill : ∀ axis, n.box.layout.sizing.along axis = .fill →
    n.box.layout.placement = .root ∨ Css.flowAround? parent n ≠ none
  /-- A text has no flow. -/
  text : n.box.style.text.isSome = true → n.box.layout.mode = .absolute
  /-- No length of a flow is negative. -/
  lengths : ∀ f, n.box.layout.mode = .flow f → ∀ v ∈ f.lengths, v = 0.0 ∨ 0.0 < v

/-- Whether a node takes the space that is left over along the flow around it. -/
def Node.grows (parent : Option Node) (n : Node) : Bool :=
  (Css.flowAround? parent n).any fun axis => (n.box.layout.sizing.along axis).isFill

/-- Whether a node takes the space across the flow around it. -/
def Node.stretches (parent : Option Node) (n : Node) : Bool :=
  (Css.flowAround? parent n).any fun axis => (n.box.layout.sizing.across axis).isFill

/-- The flow around a node is not around a root. -/
theorem flowAround?_root {parent : Option Node} {n : Node}
    (root : n.box.layout.placement = .root) : Css.flowAround? parent n = none := by
  rw [Css.flowAround?, root]

theorem Sizing.across_of_ne {s : Sizing} {d axis : Direction} (other : d ≠ axis) :
    s.across d = s.along axis := by
  cases d <;> cases axis <;> first | rfl | exact (other rfl).elim

/-- What is written for the size on an axis: a length if it is fixed, a word at a root that takes
all. -/
def Node.sizeText? (n : Node) (axis : Direction) (length : Float → String) (all : String) :
    Option String :=
  match n.box.layout.sizing.along axis with
  | .fixed v => some (length v)
  | .hug => none
  | .fill =>
    match n.box.layout.placement with
    | .root => some all
    | _ => none

/-- The size case of an axis is read from what is written for it, where no length is taken for the
word for all. -/
theorem Node.LaidOut.read_sizeText? {parent : Option Node} {n : Node} (laid : n.LaidOut parent)
    (axis : Direction) {length : Float → String} {all : String} (other : ∀ v, length v ≠ all) :
    SizeCase.read (n.sizeText? axis length all) all (Css.flowAround? parent n = some axis)
      (n.grows parent) (n.stretches parent) = n.sizeCase parent axis := by
  have along : Css.flowAround? parent n = some axis →
      n.grows parent = (n.box.layout.sizing.along axis).isFill := by
    intro around
    rw [Node.grows, around, Option.any_some]
  have across : ∀ d, Css.flowAround? parent n = some d → d ≠ axis →
      n.stretches parent = (n.box.layout.sizing.along axis).isFill := by
    intro d around other
    rw [Node.stretches, around, Option.any_some, Sizing.across_of_ne other]
  have nowhere : Css.flowAround? parent n = none → n.stretches parent = false := by
    intro around
    rw [Node.stretches, around, Option.any_none]
  unfold Node.sizeCase Node.sizeText?
  cases extent : n.box.layout.sizing.along axis with
  | fixed v => exact if_neg (other v)
  | hug =>
      rw [extent] at along across
      rw [SizeCase.read]
      cases around : Css.flowAround? parent n with
      | none => simp [nowhere around]
      | some d =>
          by_cases same : d = axis
          · subst same
            simp [along around, Extent.isFill]
          · simp [same, across d around same, Extent.isFill]
  | fill =>
      rw [extent] at along across
      cases placed : n.box.layout.placement with
      | root => exact if_pos rfl
      | flow | absolute left top =>
          rw [SizeCase.read]
          cases around : Css.flowAround? parent n with
          | none =>
              have known := laid.fill axis extent
              rw [placed, around] at known
              simp at known
          | some d =>
              by_cases same : d = axis
              · subst same
                simp [along around, Extent.isFill]
              · simp [same, across d around same, Extent.isFill]

/-! ## Least lengths that count -/

theorem Padding.sides_eq_iff {p : Padding} {a b : Float} :
    p.sides a = p.sides b ↔ ∀ v ∈ p.lengths, a ≤ v ↔ b ≤ v := by
  simp only [Padding.sides, Padding.lengths, Sides.mk.injEq, decide_eq_decide,
    List.forall_mem_cons, List.not_mem_nil, IsEmpty.forall_iff, implies_true, and_true]

/-- The same sides are padded if no length of a padding makes a difference. -/
theorem Node.padding_eq_iff (a b : Float) (parent : Option Node) (n : Node) :
    (n.layoutFacts a parent).padding = (n.layoutFacts b parent).padding ↔
      ∀ f, n.box.layout.mode = .flow f → ∀ v ∈ f.padding.lengths, a ≤ v ↔ b ≤ v := by
  simp only [Node.layoutFacts, Layout.flow?]
  cases n.box.layout.mode with
  | absolute => exact iff_of_true rfl nofun
  | flow f =>
      simp only [Mode.flow?, Option.map_some, Option.getD_some, Padding.sides_eq_iff,
        Mode.flow.injEq, forall_eq']

/-- All facts are the same if no length of a flow makes a difference. -/
theorem Node.LaidOut.layoutFacts_eq_iff {parent : Option Node} {n : Node} (laid : n.LaidOut parent)
    {a b : Float} (least : ¬a ≤ 0.0) (other : ¬b ≤ 0.0) :
    n.layoutFacts a parent = n.layoutFacts b parent ↔
      ∀ f, n.box.layout.mode = .flow f → ∀ v ∈ f.lengths, a ≤ v ↔ b ≤ v := by
  have parts : n.layoutFacts a parent = n.layoutFacts b parent ↔
      n.flexFacts? a = n.flexFacts? b ∧
        (n.layoutFacts a parent).padding = (n.layoutFacts b parent).padding := by
    simp only [Node.layoutFacts, LayoutFacts.mk.injEq, true_and, and_true]
  rw [parts, n.padding_eq_iff, Node.flexFacts?, Node.flexFacts?]
  cases mode : n.box.layout.mode with
  | absolute => exact iff_of_true ⟨rfl, nofun⟩ nofun
  | flow f =>
      have gap : (if f.gap > 0.0 then some (decide (a ≤ f.gap)) else none) =
          (if f.gap > 0.0 then some (decide (b ≤ f.gap)) else none) ↔
            (a ≤ f.gap ↔ b ≤ f.gap) := by
        rcases laid.lengths f mode f.gap List.mem_cons_self with zero | positive
        · rw [zero]
          exact iff_of_true (by simp only [least, other]) (iff_of_false least other)
        · rw [if_pos positive, if_pos positive, Option.some_inj, decide_eq_decide]
      simp only [Flow.flexFacts, Option.some_inj, FlexFacts.mk.injEq, true_and, and_true, gap,
        Mode.flow.injEq, forall_eq', Flow.lengths, List.forall_mem_cons]

section

variable {s : Settings} {host : Option Scene.Node} {roots : List Scene.Node} {forest : List Node}

/-- What agrees with a scene agrees at every node beside its parent. -/
theorem Node.FollowsAll.forall_under {R : Agreement} (forest : List Node) :
    ∀ (parent : Option Node) (sources : List Scene.Node),
      Node.FollowsAll R (parent.map Node.box) sources forest →
        ∀ visit ∈ Node.preorderListUnder parent forest,
          ∃ layer, R (visit.1.map Node.box) layer visit.2.box := by
  induction forest using Node.forestInduction with
  | nil => exact fun _ _ _ _ member => nomatch member
  | cons box children rest below after =>
      intro parent sources follows visit member
      rcases sources with _ | ⟨⟨layer, under⟩, others⟩
      · exact follows.elim
      obtain ⟨⟨own, inside⟩, later⟩ := follows
      rw [Node.preorderListUnder_mk_cons, List.mem_cons, List.mem_append] at member
      rcases member with rfl | deeper | beside
      · exact ⟨layer, own⟩
      · exact below (some (.mk box children)) under inside visit deeper
      · exact after parent others later visit beside

end

end Handoff.Design

namespace Handoff.Decimal

theorem larger_zero (x : Float) : larger x 0.0 = 0.0 ∨ 0.0 < larger x 0.0 := by
  unfold larger
  split
  · exact .inr ‹_›
  · exact .inl rfl

end Handoff.Decimal

namespace Handoff.Scene

/-- No length of a flow is negative. -/
theorem AutoLayout.lengths_of_flow? {a : AutoLayout} {f : Design.Flow} (flow : a.flow? = some f) :
    ∀ v ∈ f.lengths, v = 0.0 ∨ 0.0 < v := by
  obtain ⟨direction, -, rfl⟩ := Option.map_eq_some_iff.mp flow
  simp only [Design.Flow.lengths, Design.Padding.lengths, List.forall_mem_cons]
  refine ⟨?gap, Decimal.larger_zero _, Decimal.larger_zero _, Decimal.larger_zero _,
    Decimal.larger_zero _, List.forall_mem_nil _⟩
  case gap =>
    split
    · exact .inl rfl
    · exact Decimal.larger_zero _

end Handoff.Scene

namespace Handoff.Design

variable {s : Settings} {host : Option Scene.Node} {roots : List Scene.Node} {forest : List Node}

/-- Every node of a design goes together with its parent. -/
theorem laidOut_of_build (built : Design.build s host roots = .ok forest) :
    ∀ visit ∈ Node.preorderListUnder none forest, visit.2.LaidOut visit.1 := by
  obtain ⟨rfl, -⟩ := build_eq_ok built
  let R : Agreement := fun above layer box => Box.Coherent s host above layer box ∧
    box.WellFormed ∧ ∀ f, box.layout.mode = .flow f → ∀ v ∈ f.lengths, v = 0.0 ∨ 0.0 < v
  have lengths : ∀ (o : Outline) (around : Surroundings) (name : String) f,
      (o.box s around name).layout.mode = .flow f → ∀ v ∈ f.lengths, v = 0.0 ∨ 0.0 < v := by
    intro o around name f flow
    obtain ⟨-, a, -, converted⟩ := Scene.Layer.mode_eq_flow flow
    exact Scene.AutoLayout.lengths_of_flow? converted
  have follows : Node.FollowsAll R none (Scene.shownForest roots)
      (ofSelection s host roots .empty).1 :=
    followsAll_ofSelection s host roots .empty
      (fun o _ name => ⟨coherent_root s host o name,
        (wellFormed_box s (.ofParent s host) name o).atRoot, lengths o (.ofParent s host) name⟩)
      (fun o _ above name => ⟨coherent_inside s host o above name,
        wellFormed_box s _ name o, lengths o (.inside above.layout.mode) name⟩)
  rintro ⟨parent, n⟩ member
  obtain ⟨layer, coherent, formed, spaced⟩ := follows.forall_under _ none _ _ member
  refine ⟨?fill, ?text, spaced⟩
  case fill =>
    intro axis fill
    cases parent with
    | none => exact .inl (coherent.root_iff.mpr rfl)
    | some above =>
        have flows := coherent.fill nofun axis fill
        obtain ⟨around, -⟩ := (coherent.flow_iff above.box rfl).mp flows
        refine .inr ?_
        have flow : n.box.layout.placement = .flow := flows
        rw [Css.flowAround?, flow]
        simpa [Option.isSome_iff_ne_none] using around
  case text =>
    intro text
    have kind := formed.text_iff.mp text
    cases mode : n.box.layout.mode with
    | absolute => rfl
    | flow f =>
        rcases formed.flow_kind f mode with container | component
        · cases kind.symm.trans container
        · cases kind.symm.trans component

end Handoff.Design
