import Handoff.Proofs.Decimal.Thresholds
import Handoff.Proofs.Design.RootWidth

/-!
What a bare group would have been.

A bare group is replaced by the one child that it shows, and what it asks for itself is lost.
`Layer.ShowsNothing` lists all that a group can add to a picture.  The fills, strokes and effects
of a bare group are none, but nobody asks whether it clips its contents or how it mixes with what
is under it (`Node.showsNothing_iff_of_standIn`).

As to layout, a bare group does not grow along the flow around it.  Its size is the measured one on
an axis unless it is said to fill that axis or stretches across the flow (`Layer.FillsInside`),
which nobody asks for either (`Node.measured_iff_of_standIn`).
-/

namespace Handoff

open Design (Direction Mode Extent Kind Geometry)

/-! ## Opacities -/

namespace Decimal

open Float.Model (UnpackedFloat)

theorem isNaN_iff (x : Float) : x.isNaN = true ↔ x.toModel.unpack = .notANumber :=
  UnpackedFloat.isNaN_iff

theorem unpack_one :
    (1.0 : Float).toModel.unpack = .finite .positive 4503599627370496 (-52) (by decide) := by
  rfl

/-- Nothing is less than zero that is not less than one. -/
theorem not_lt_zero {x : Float} (full : ¬x < 1.0) : ¬x < 0.0 := by
  intro negative
  refine full ?_
  rw [lt_iff, unpack_zero] at negative
  rw [lt_iff, unpack_one]
  rcases unpacked : x.toModel.unpack with (_ | _) | _ | (_ | _) | ⟨_ | _, m, e, h⟩
  all_goals
    rw [unpacked] at negative
    first | rfl | cases negative

/-- What is neither less nor more than one is one, if it is a number. -/
theorem beq_one_iff {x : Float} (full : ¬x < 1.0) (small : ¬1.0 < x) :
    (x == 1.0) = true ↔ x.isNaN = false := by
  rw [lt_iff, unpack_one] at full small
  rw [← Bool.not_eq_true, isNaN_iff, beq_iff, unpack_one]
  rcases unpacked : x.toModel.unpack with (_ | _) | _ | (_ | _) | ⟨_ | _, m, e, h⟩
  all_goals rw [unpacked] at full small
  case infinity.positive => exact (small rfl).elim
  case notANumber => exact iff_of_false (fun same => same.2 rfl) (fun number => number rfl)
  case finite.positive =>
    rw [finite_lt_iff] at full small
    obtain ⟨rfl, rfl⟩ : e = -52 ∧ m = 4503599627370496 := by omega
    exact iff_of_true ⟨rfl, nofun⟩ nofun
  all_goals exact (full rfl).elim

/-- A number that is not less than one is one when it is kept between zero and one. -/
theorem clamp_unit_eq_one_iff {x : Float} (full : ¬x < 1.0) :
    (clamp x 0.0 1.0 == 1.0) = true ↔ x.isNaN = false := by
  unfold clamp
  rw [if_neg (not_lt_zero full)]
  dsimp only
  split
  case isTrue larger =>
    refine iff_of_true (by decide) (Bool.eq_false_iff.mpr fun missing => ?_)
    rw [gt_iff_lt, lt_iff, (isNaN_iff x).mp missing] at larger
    cases larger
  case isFalse small => exact beq_one_iff full small

end Decimal

/-- The measured size on an axis. -/
def Design.Geometry.along (geometry : Geometry) : Direction → Float
  | .horizontal => geometry.width
  | .vertical => geometry.height

namespace Scene

variable {s : Settings} {l : Layer} {g child : Node}

/-! ## Appearance -/

/-- What is asked of a bare group. -/
theorem Layer.isBareGroup_iff :
    l.isBareGroup = true ↔
      l.nodeType = "GROUP" ∧ l.hasVisualStyle = false ∧ ¬l.opacity < 1.0 ∧
        (l.rotation == 0.0) = true ∧ l.positioning ≠ .absolute ∧ ¬l.layoutGrow > 0.0 := by
  simp [Layer.isBareGroup, and_assoc]

/-- A group draws nothing itself, is not faint, does not clip its contents and does not mix with
what is under it. -/
structure Layer.ShowsNothing (s : Settings) (l : Layer) : Prop where
  fills : (l.style s .group).fills = []
  strokes : (l.style s .group).strokes = []
  stroke : (l.style s .group).stroke = none
  effects : (l.style s .group).effects = []
  opacity : ((l.style s .group).opacity == 1.0) = true
  clips : (l.style s .group).clipsContent = false
  blends : l.blendMode = .normal ∨ l.blendMode = .passThrough

/-- Paints of which none is visible do not show. -/
theorem filter_shows_eq_nil {paints : List Paint} (hidden : paints.any (·.visible) = false) :
    paints.filter Paint.shows = [] := by
  rw [List.any_eq_false] at hidden
  rw [List.filter_eq_nil_iff]
  intro p member shows
  exact hidden p member (Bool.and_eq_true_iff.mp shows).1

/-- A layer without a look of its own has nothing to draw, and nothing to refuse. -/
theorem Layer.results_eq_nil (plain : l.hasVisualStyle = false) :
    l.fillResults s = [] ∧ l.strokeResults s = [] ∧ l.effectResults s = [] := by
  obtain ⟨⟨fills, strokes⟩, effects⟩ :
      (l.fills.any (·.visible) = false ∧
        (decide (l.strokeWeight > 0.0) && l.strokes.any (·.visible)) = false) ∧
      l.effects.any (·.visible) = false := by
    simpa only [Layer.hasVisualStyle, Bool.or_eq_false_iff] using plain
  refine ⟨?_, ?_, ?_⟩
  · rw [Layer.fillResults, filter_shows_eq_nil fills, List.map_nil]
  · unfold Layer.strokeResults
    split
    case isTrue heavy =>
      rw [decide_eq_true heavy, Bool.true_and] at strokes
      rw [filter_shows_eq_nil strokes, List.map_nil]
    case isFalse => rfl
  · rw [Layer.effectResults, List.filter_eq_nil_iff.mpr (List.any_eq_false.mp effects),
      List.map_nil]

/-- A layer without a look of its own has neither paint nor effect in the design, and nothing is
missing from it. -/
theorem Layer.style_of_plain (plain : l.hasVisualStyle = false) (kind : Kind) :
    (l.style s kind).fills = [] ∧ (l.style s kind).strokes = [] ∧
      (l.style s kind).stroke = none ∧ (l.style s kind).effects = [] ∧ l.refusals s = [] := by
  obtain ⟨fills, strokes, effects⟩ := Layer.results_eq_nil (s := s) plain
  refine ⟨congrArg counterparts fills, congrArg counterparts strokes, ?_,
    congrArg counterparts effects, ?_⟩
  · unfold Layer.style
    rw [strokes]
    rfl
  · rw [Layer.refusals, fills, strokes, effects]
    rfl

/-- A bare group shows nothing if it neither clips nor mixes; its opacity is one unless it is not
a number. -/
theorem Layer.showsNothing_iff (bare : l.isBareGroup = true) :
    l.ShowsNothing s ↔
      l.clipsContent = false ∧ (l.blendMode = .normal ∨ l.blendMode = .passThrough) ∧
        l.opacity.isNaN = false := by
  obtain ⟨-, plain, full, -⟩ := Layer.isBareGroup_iff.mp bare
  obtain ⟨fills, strokes, stroke, effects, -⟩ := Layer.style_of_plain (s := s) plain .group
  have one := Decimal.clamp_unit_eq_one_iff full
  constructor
  · intro nothing
    exact ⟨nothing.clips, nothing.blends, one.mp nothing.opacity⟩
  · rintro ⟨clips, blends, number⟩
    exact ⟨fills, strokes, stroke, effects, one.mpr number, clips, blends⟩

/-- A group with a stand-in has no paints or effects, and nothing else to show exactly if it
neither clips its contents nor mixes with what is under it. -/
theorem Node.showsNothing_iff_of_standIn (standIn : g.passThrough? = some child) (s : Settings) :
    ((g.layer.style s .group).fills = [] ∧ (g.layer.style s .group).strokes = [] ∧
      (g.layer.style s .group).stroke = none ∧ (g.layer.style s .group).effects = [] ∧
      g.layer.refusals s = []) ∧
    (g.layer.ShowsNothing s ↔
      g.layer.clipsContent = false ∧
        (g.layer.blendMode = .normal ∨ g.layer.blendMode = .passThrough) ∧
        g.layer.opacity.isNaN = false) := by
  have bare := (Node.passThrough?_eq_some_iff.mp standIn).1
  obtain ⟨-, plain, -⟩ := Layer.isBareGroup_iff.mp bare
  exact ⟨Layer.style_of_plain plain .group, Layer.showsNothing_iff bare⟩

/-- A group that clips, with a hidden fill and a heavy stroke of hidden paint, around a
rectangle. -/
theorem Node.showsNothing_iff_of_standIn_mask :
    let hidden : Paint := { visible := false }
    let picture := Node.new "1:2" "RECTANGLE"
    let mask : Node := .mk
      { nodeType := "GROUP", fills := [hidden], strokes := [hidden], strokeWeight := 2.0,
        clipsContent := true } [picture]
    mask.passThrough? = some picture ∧
      ((mask.layer.style .defaults .group).fills = [] ∧
        (mask.layer.style .defaults .group).strokes = [] ∧
        (mask.layer.style .defaults .group).stroke = none ∧
        (mask.layer.style .defaults .group).effects = [] ∧
        mask.layer.refusals .defaults = []) ∧
      (mask.layer.ShowsNothing .defaults ↔
        mask.layer.clipsContent = false ∧
          (mask.layer.blendMode = .normal ∨ mask.layer.blendMode = .passThrough) ∧
          mask.layer.opacity.isNaN = false) := by
  intro hidden picture mask
  have standIn : mask.passThrough? = some picture :=
    Node.passThrough?_eq_some_iff.mpr ⟨by decide +kernel, rfl, by decide⟩
  exact ⟨standIn, Node.showsNothing_iff_of_standIn standIn .defaults⟩

/-- A group that clips its contents is replaced all the same, and so is one that multiplies with
what is under it. -/
theorem Node.not_showsNothing_mask :
    let picture := Node.new "1:2" "RECTANGLE"
    let mask : Node := .mk { nodeType := "GROUP", clipsContent := true } [picture]
    let tint : Node := .mk { nodeType := "GROUP", blendMode := .multiply } [picture]
    mask.passThrough? = some picture ∧ ¬mask.layer.ShowsNothing .defaults ∧
      tint.passThrough? = some picture ∧ ¬tint.layer.ShowsNothing .defaults := by
  intro picture mask tint
  refine ⟨Node.passThrough?_eq_some_iff.mpr ⟨by decide +kernel, rfl, by decide⟩, fun nothing => ?_,
    Node.passThrough?_eq_some_iff.mpr ⟨by decide +kernel, rfl, by decide⟩, fun nothing => ?_⟩
  · cases nothing.clips
  · rcases nothing.blends with blends | blends <;> cases blends

/-! ## Layout -/

/-- A layer fills an axis of what arranges it, though it does not grow: it takes part in a flow
and asks for the axis outright or, where it has no sizing of its own, stretches across the flow. -/
def Layer.FillsInside (l : Layer) (above : Mode) (axis : Direction) : Prop :=
  ∃ flow, above = .flow flow ∧
    (l.explicit? axis = some .fill ∨
      l.explicit? axis = none ∧ flow.direction ≠ axis ∧ l.layoutAlign = .stretch)

/-- No mode lets a layer fill an axis exactly if it is never said to, and stretches across no flow:
each axis has a flow across it. -/
theorem Layer.forall_not_fillsInside_iff :
    (∀ above axis, ¬l.FillsInside above axis) ↔
      ∀ axis, l.explicit? axis ≠ some .fill ∧
        (l.explicit? axis = none → l.layoutAlign ≠ .stretch) := by
  constructor
  · intro never axis
    refine ⟨fun asked => never (.flow (.along axis)) axis ⟨_, rfl, .inl asked⟩, ?_⟩
    intro free stretched
    obtain ⟨across, other⟩ : ∃ across : Direction, across ≠ axis := by
      cases axis
      exacts [⟨.vertical, by decide⟩, ⟨.horizontal, by decide⟩]
    exact never (.flow (.along across)) axis ⟨_, rfl, .inr ⟨free, other, stretched⟩⟩
  · rintro modest above axis ⟨flow, -, asked | ⟨free, -, stretched⟩⟩
    · exact (modest axis).1 asked
    · exact (modest axis).2 free stretched

/-- A bare group fills an axis if it is said to, or stretches across the flow around it. -/
theorem Layer.extent_eq_fill_iff_of_bare {kind : Kind} {mode above : Mode} {axis : Direction}
    {measured : Float} (bare : l.isBareGroup = true) :
    l.extent kind mode (.inside above) axis measured = .fill ↔ l.FillsInside above axis := by
  obtain ⟨-, -, -, -, positioned, rigid⟩ := Layer.isBareGroup_iff.mp bare
  rw [Layer.extent_eq_fill_iff, Layer.isInFlow_inside]
  cases above with
  | absolute =>
      constructor
      · rintro ⟨-, flows, -⟩
        cases flows
      · rintro ⟨flow, missing, -⟩
        cases missing
  | flow flow =>
      rw [Layer.requested?_flow_eq_fill_iff]
      constructor
      · rintro ⟨asked | ⟨free, ⟨-, grows⟩ | stretched⟩, -⟩
        · exact ⟨flow, rfl, .inl asked⟩
        · exact (rigid grows).elim
        · exact ⟨flow, rfl, .inr ⟨free, stretched⟩⟩
      · rintro ⟨_, ⟨rfl⟩, asked | ⟨free, stretched⟩⟩
        · exact ⟨.inl asked, rfl, positioned⟩
        · exact ⟨.inr ⟨free, .inr stretched⟩, rfl, positioned⟩

/-- A group has nothing to follow, so it fills an axis or has the measured size there. -/
theorem Layer.extent_group {around : Surroundings} {axis : Direction} {measured : Float} :
    l.extent .group .absolute around axis measured = .fixed measured ↔
      l.extent .group .absolute around axis measured ≠ .fill := by
  constructor
  · intro fixed fill
    cases fixed.symm.trans fill
  · intro other
    cases extent : l.extent .group .absolute around axis measured with
    | fixed v => rw [Layer.extent_eq_fixed extent]
    | hug => rcases Layer.extent_eq_hug extent with flows | text <;> cases ‹_›
    | fill => exact (other extent).elim

/-- The sizes of a group with a stand-in, wherever it stands, are the measured ones except where it
fills what arranges it.  So they always are exactly if the group is never said to fill an axis and
stretches across no flow. -/
theorem Node.measured_iff_of_standIn (standIn : g.passThrough? = some child) (s : Settings)
    (geometry : Geometry) :
    let size (above : Mode) (axis : Direction) : Extent :=
      (g.layer.layout s .group geometry (.inside above)).sizing.along axis
    ¬g.layer.layoutGrow > 0.0 ∧
      (∀ above axis,
        (size above axis = .fill ↔ g.layer.FillsInside above axis) ∧
          (size above axis = .fixed (geometry.along axis) ↔ ¬g.layer.FillsInside above axis)) ∧
      ((∀ above axis, size above axis = .fixed (geometry.along axis)) ↔
        ∀ axis, g.layer.explicit? axis ≠ some .fill ∧
          (g.layer.explicit? axis = none → g.layer.layoutAlign ≠ .stretch)) := by
  intro size
  have bare := (Node.passThrough?_eq_some_iff.mp standIn).1
  obtain ⟨-, -, -, -, -, rigid⟩ := Layer.isBareGroup_iff.mp bare
  have extent (above : Mode) (axis : Direction) : size above axis =
      g.layer.extent .group .absolute (.inside above) axis (geometry.along axis) := by
    cases axis <;> rfl
  have fills (above : Mode) (axis : Direction) :
      size above axis = .fill ↔ g.layer.FillsInside above axis := by
    rw [extent]
    exact Layer.extent_eq_fill_iff_of_bare bare
  have measured (above : Mode) (axis : Direction) :
      size above axis = .fixed (geometry.along axis) ↔ ¬g.layer.FillsInside above axis := by
    rw [← fills, extent]
    exact Layer.extent_group
  refine ⟨rigid, fun above axis => ⟨fills above axis, measured above axis⟩, ?_⟩
  simp only [measured]
  exact Layer.forall_not_fillsInside_iff

/-- A group that is said to be fixed in width and stretches, around a rectangle: it fills the
height of a row. -/
theorem Node.measured_iff_of_standIn_stretched :
    let picture := Node.new "1:2" "RECTANGLE"
    let group : Node := .mk
      { nodeType := "GROUP", sizingHorizontal := some .fixed, layoutAlign := .stretch } [picture]
    let geometry : Geometry := ⟨0.0, 0.0, 40.0, 20.0, 0.0⟩
    let size (above : Mode) (axis : Direction) : Extent :=
      (group.layer.layout .defaults .group geometry (.inside above)).sizing.along axis
    group.passThrough? = some picture ∧ size (.flow (.along .horizontal)) .vertical = .fill ∧
      ¬group.layer.layoutGrow > 0.0 ∧
      (∀ above axis,
        (size above axis = .fill ↔ group.layer.FillsInside above axis) ∧
          (size above axis = .fixed (geometry.along axis) ↔
            ¬group.layer.FillsInside above axis)) ∧
      ((∀ above axis, size above axis = .fixed (geometry.along axis)) ↔
        ∀ axis, group.layer.explicit? axis ≠ some .fill ∧
          (group.layer.explicit? axis = none → group.layer.layoutAlign ≠ .stretch)) := by
  intro picture group geometry size
  have standIn : group.passThrough? = some picture :=
    Node.passThrough?_eq_some_iff.mpr ⟨by decide +kernel, rfl, by decide⟩
  exact ⟨standIn, rfl, Node.measured_iff_of_standIn standIn .defaults geometry⟩

/-- A group in a row that is said to fill its width is replaced all the same, and so is one that
stretches across the row. -/
theorem Node.not_measured_in_row :
    let picture := Node.new "1:2" "RECTANGLE"
    let wide : Node := .mk { nodeType := "GROUP", sizingHorizontal := some .fill } [picture]
    let tall : Node := .mk
      { nodeType := "GROUP", sizingHorizontal := some .fixed, layoutAlign := .stretch } [picture]
    let geometry : Geometry := ⟨0.0, 0.0, 40.0, 20.0, 0.0⟩
    let sizing (g : Node) : Design.Sizing :=
      (g.layer.layout .defaults .group geometry (.inside (.flow (.along .horizontal)))).sizing
    wide.passThrough? = some picture ∧ sizing wide = ⟨.fill, .fixed 20.0⟩ ∧
      tall.passThrough? = some picture ∧ sizing tall = ⟨.fixed 40.0, .fill⟩ := by
  intro picture wide tall geometry sizing
  exact ⟨Node.passThrough?_eq_some_iff.mpr ⟨by decide +kernel, rfl, by decide⟩, rfl,
    Node.passThrough?_eq_some_iff.mpr ⟨by decide +kernel, rfl, by decide⟩, rfl⟩

end Scene

end Handoff
