import Handoff.Proofs.Css.Properties
import Handoff.Proofs.Design.LayoutFacts

/-!
Layout read off declarations.

`layoutFacts` reads declarations as a browser does, property by property, and keeps what they say
of the layout of a box.  The declarations of a node in a design say what the design says
(`layoutFacts_declarations`), where a length of less than half a hundredth of a pixel counts as
zero.

Settled declarations have one value for a property, that of the last declaration that was made of
it (`value?_settle`), so the value is found in the aspect of the node that declares the property
(`value?_of_aspect`).
-/

namespace Handoff.Css

open Design (Node Direction LayoutFacts FlexFacts Sides SizeCase Positioning Aspect)

/-! ## Values of properties -/

/-- The value of a property. -/
def value? (property : String) (ds : List Declaration) : Option String :=
  (ds.find? (·.property = property)).map (·.value)

/-- The value of a property once all declarations are made in turn. -/
def lastValue? (property : String) (ds : List Declaration) : Option String :=
  value? property ds.reverse

section

variable {property : String} {first later ds : List Declaration} {d : Declaration}

theorem value?_cons : value? property (d :: ds) =
    if d.property = property then some d.value else value? property ds := by
  unfold value?
  by_cases own : d.property = property
  · rw [List.find?_cons_of_pos (by simpa using own), if_pos own, Option.map_some]
  · rw [List.find?_cons_of_neg (by simpa using own), if_neg own]

@[simp] theorem lastValue?_nil : lastValue? property [] = none :=
  rfl

@[simp] theorem lastValue?_append : lastValue? property (first ++ later) =
    (lastValue? property later).or (lastValue? property first) := by
  rw [lastValue?, List.reverse_append, value?, List.find?_append, Option.map_or]
  rfl

@[simp] theorem lastValue?_cons : lastValue? property (d :: ds) =
    (lastValue? property ds).or (if d.property = property then some d.value else none) := by
  have single : d :: ds = [d] ++ ds := rfl
  rw [single, lastValue?_append]
  exact congrArg _ value?_cons

theorem lastValue?_ite {c : Prop} [Decidable c] : lastValue? property (if c then first else later) =
    if c then lastValue? property first else lastValue? property later := by
  split <;> rfl

theorem lastValue?_eq_none (others : ∀ d ∈ ds, d.property ≠ property) :
    lastValue? property ds = none := by
  rw [lastValue?, value?, Option.map_eq_none_iff, List.find?_eq_none]
  intro d member
  simpa using others d (List.mem_reverse.mp member)

/-- Setting a property gives it its value and leaves the others alone. -/
theorem value?_set (kept : List Declaration) (d : Declaration) : value? property (set kept d) =
    if d.property = property then some d.value else value? property kept := by
  induction kept with
  | nil => exact value?_cons
  | cons e rest ih =>
      rw [set]
      split
      · rename_i same
        rw [value?_cons, value?_cons, same]
        split <;> rfl
      · rename_i other
        rw [value?_cons, ih, value?_cons]
        split
        · rename_i own
          rw [if_neg fun same => other (own.trans same.symm)]
        · rfl

/-- A property has the value of its last declaration. -/
theorem value?_settle (ds : List Declaration) :
    value? property (settle ds) = lastValue? property ds := by
  have run : ∀ (ds kept : List Declaration), value? property (ds.foldl set kept) =
      (lastValue? property ds).or (value? property kept) := by
    intro ds
    induction ds with
    | nil => exact fun _ => rfl
    | cons d rest ih =>
        intro kept
        rw [List.foldl_cons, ih, value?_set, lastValue?_cons, Option.or_assoc]
        split <;> rfl
  exact (run ds []).trans Option.or_none

end

/-! ## Reading -/

/-- The sides of a padding that are not written as zero. -/
def sides (value : String) : Sides :=
  match (Text.splitChars ' ' value.toList).map fun side => String.ofList side != "0px" with
  | [all] => ⟨all, all, all, all⟩
  | [vertical, horizontal] => ⟨vertical, horizontal, vertical, horizontal⟩
  | [top, horizontal, bottom] => ⟨top, horizontal, bottom, horizontal⟩
  | [top, right, bottom, left] => ⟨top, right, bottom, left⟩
  | _ => .none

/-- The positioning that is declared. -/
def positioning (ds : List Declaration) : Positioning :=
  if value? "position" ds = some "absolute" then
    .offset (value? "left" ds).isSome (value? "top" ds).isSome
  else if value? "position" ds = some "relative" then .context
  else .static

/-- What the keyword of a distribution says. -/
def readJustify (value : Option String) : Design.Distribution :=
  if value = some "center" then .center
  else if value = some "flex-end" then .finish
  else if value = some "space-between" then .spaceBetween
  else .start

/-- What the keyword of an alignment says. -/
def readAlign (value : String) : Design.Alignment :=
  if value = "center" then .center
  else if value = "flex-end" then .finish
  else if value = "baseline" then .baseline
  else .start

/-- The flex container that is declared. -/
def flexFacts? (ds : List Declaration) : Option FlexFacts :=
  if value? "display" ds = some "flex" then
    some {
      direction := if value? "flex-direction" ds = some "column" then .vertical else .horizontal
      distribution := readJustify (value? "justify-content" ds)
      alignment := (value? "align-items" ds).map readAlign
      gap := (value? "gap" ds).map (· != "0px")
      wraps := value? "flex-wrap" ds = some "wrap" }
  else none

/-- What the keyword of a text alignment says. -/
def readTextAlign (value : Option String) : Design.TextAlign :=
  if value = some "center" then .center
  else if value = some "right" then .right
  else if value = some "justify" then .justified
  else .left

/-- The size case that is declared for an axis, in a flow along `around`. -/
def sizeCase (around : Option Direction) (ds : List Declaration) (axis : Direction) : SizeCase :=
  .read (value? (sizeProperty axis) ds) "100%" (around = some axis)
    (value? "flex" ds = some "1 1 0") (value? "align-self" ds = some "stretch")

/-- What declarations say of the layout of a box in a flow along `around`. -/
def layoutFacts (around : Option Direction) (ds : List Declaration) : LayoutFacts where
  positioning := positioning ds
  flex := flexFacts? ds
  padding := ((value? "padding" ds).map sides).getD .none
  width := sizeCase around ds .horizontal
  height := sizeCase around ds .vertical
  rigid := value? "flex-shrink" ds = some "0"
  textAlign := readTextAlign (value? "text-align" ds)
  unbroken := value? "white-space" ds = some "nowrap"
  clips := value? "overflow" ds = some "hidden"
  rotation := (value? "transform" ds).bind (Text.between? "rotate(" "deg)")
  aboutCorner := value? "transform-origin" ds = some "top left"

/-! ## Where a property is declared -/

/-- The declarations of an aspect of a node inside its parent. -/
def aspect (parent : Option Node) (n : Node) : Aspect → List Declaration
  | .placement => placement n
  | .flow => flowOf n
  | .size => size parent n .horizontal ++ size parent n .vertical
  | .text => match n.box.style.text with
    | some t => text n t
    | none => []
  | .paint => match n.box.style.text with
    | some _ => []
    | none => content n
  | .corners => corners n
  | .effects => effects n
  | .finish => finish n

/-- The properties of an aspect. -/
def aspectProperties : Aspect → List String
  | .placement => placementProperties
  | .flow => flowProperties
  | .size => sizeProperties .horizontal ++ sizeProperties .vertical
  | .text => "font-family" :: contentProperties
  | .paint => backgroundProperties ++ borderProperties
  | .corners => ["border-radius"]
  | .effects => effectProperties
  | .finish => finishProperties

section

variable {parent : Option Node} {n : Node} {property : String} {a : Aspect}

/-- Nothing in a list is of a property that is not in its table. -/
theorem Declares.lastValue? {properties : List String} {ds : List Declaration}
    (declares : Declares properties ds) (other : property ∉ properties) :
    lastValue? property ds = none :=
  lastValue?_eq_none (declares.property_ne other)

theorem aspect_text {t : Design.TextStyle} (present : n.box.style.text = some t) :
    aspect parent n .text = text n t := by
  rw [aspect, present]

theorem aspect_text_none (plain : n.box.style.text = none) : aspect parent n .text = [] := by
  rw [aspect, plain]

theorem content_eq_aspects (parent : Option Node) (n : Node) :
    content n = aspect parent n .text ++ aspect parent n .paint := by
  rw [aspect, aspect]
  cases present : n.box.style.text with
  | none => rfl
  | some t => exact (content_of_text present).trans (List.append_nil _).symm

theorem lastValue?_aspect (other : property ∉ aspectProperties a) :
    lastValue? property (aspect parent n a) = none := by
  cases a with
  | placement => exact (declares_placement n).lastValue? other
  | flow => exact (declares_flowOf n).lastValue? other
  | size =>
      rw [aspectProperties, List.mem_append, not_or] at other
      rw [aspect, lastValue?_append, (declares_size parent n .vertical).lastValue? other.2,
        (declares_size parent n .horizontal).lastValue? other.1]
      rfl
  | text =>
      refine lastValue?_eq_none fun d member => content_property_ne n other d ?_
      rw [content_eq_aspects parent]
      exact List.mem_append_left _ member
  | paint =>
      cases present : n.box.style.text with
      | none =>
          rw [aspect, present]
          exact (declares_content present).lastValue? other
      | some t =>
          rw [aspect, present]
          rfl
  | corners => exact (declares_corners n).lastValue? other
  | effects => exact (declares_effects n).lastValue? other
  | finish => exact (declares_finish n).lastValue? other

/-- A property is declared by one aspect, if the others have nothing in their tables or nothing to
declare. -/
theorem value?_of_aspect (a : Aspect) (idle : List Aspect)
    (empty : ∀ b ∈ idle, aspect parent n b = [])
    (apart : ∀ b ∈ Aspect.all, b ∉ a :: idle → property ∉ aspectProperties b) :
    value? property (declarations parent n) = lastValue? property (aspect parent n a) := by
  have others : ∀ b, b ≠ a → lastValue? property (aspect parent n b) = none := by
    intro b other
    by_cases still : b ∈ idle
    · rw [empty b still]
      rfl
    · refine lastValue?_aspect (apart b b.mem_all ?_)
      rw [List.mem_cons, not_or]
      exact ⟨other, still⟩
  have aspects : declarations parent n = settle (Aspect.all.flatMap (aspect parent n)) := by
    rw [declarations_eq, content_eq_aspects parent]
    simp [Aspect.all, aspect]
  rw [aspects, value?_settle]
  cases a <;> simp [Aspect.all, others]

/-! ## What the aspects say -/

theorem positioning_declarations : positioning (declarations parent n) = n.positioning := by
  have place : value? "position" (declarations parent n) = lastValue? "position" (placement n) :=
    value?_of_aspect .placement [] nofun (by decide)
  have left : value? "left" (declarations parent n) = lastValue? "left" (placement n) :=
    value?_of_aspect .placement [] nofun (by decide)
  have top : value? "top" (declarations parent n) = lastValue? "top" (placement n) :=
    value?_of_aspect .placement [] nofun (by decide)
  rw [positioning, place, left, top, placement, Node.positioning]
  cases n.box.layout.placement with
  | absolute left top => simp
  | root | flow => cases n.hasAbsoluteChild <;> simp

theorem clips_declarations :
    decide (value? "overflow" (declarations parent n) = some "hidden") =
      n.box.style.clipsContent := by
  rw [value?_of_aspect .finish [] nofun (by decide), aspect, finish]
  cases n.box.style.clipsContent <;> simp [lastValue?_ite]

theorem rotation_declarations :
    (value? "transform" (declarations parent n)).bind (Text.between? "rotate(" "deg)") =
      if n.box.geometry.rotation != 0.0 then some (Decimal.plain (-n.box.geometry.rotation))
      else none := by
  rw [value?_of_aspect .finish [] nofun (by decide), aspect, finish]
  cases n.box.geometry.rotation != 0.0 <;> simp [lastValue?_ite, Text.between?_append]

theorem aboutCorner_declarations :
    decide (value? "transform-origin" (declarations parent n) = some "top left") =
      (n.box.geometry.rotation != 0.0) := by
  rw [value?_of_aspect .finish [] nofun (by decide), aspect, finish]
  cases n.box.geometry.rotation != 0.0 <;> simp [lastValue?_ite]

/-! ### Lines of text -/

theorem lastValue?_optional (p : String) (v : Option String) :
    lastValue? property (optional p v) = if p = property then v else none := by
  cases v <;> simp [optional]

/-- What only a text declares is declared by its typography, its box or its lines. -/
theorem lastValue?_text {t : Design.TextStyle} (other : property ∉ textPaintProperties) :
    lastValue? property (text n t) =
      (lastValue? property (if n.box.layout.sizing.horizontal.isHug then
        [⟨"white-space", "nowrap"⟩] else [])).or
        ((lastValue? property (textBox n t.typography)).or
          (lastValue? property (typography t.typography))) := by
  simp only [text, lastValue?_append, (declares_textPaint _).lastValue? other, Option.or_none]

theorem textAlign_declarations : readTextAlign (value? "text-align" (declarations parent n)) =
    (n.box.style.text.map (·.typography.align)).getD .left := by
  rw [value?_of_aspect .text [] nofun (by decide)]
  cases text : n.box.style.text with
  | none =>
      rw [aspect_text_none text]
      rfl
  | some t =>
      have letters : lastValue? "text-align" (typography t.typography) =
          textAlign? t.typography.align := by
        simp [typography, lastValue?_ite, lastValue?_optional]
      rw [aspect_text text, lastValue?_text (by decide), letters,
        (declares_textBox n t.typography).lastValue? (by decide), Option.map_some, Option.getD_some]
      cases t.typography.align <;> simp [lastValue?_ite, readTextAlign, textAlign?]

theorem unbroken_declarations :
    decide (value? "white-space" (declarations parent n) = some "nowrap") =
      (n.box.style.text.isSome && n.box.layout.sizing.horizontal.isHug) := by
  rw [value?_of_aspect .text [] nofun (by decide)]
  cases text : n.box.style.text with
  | none =>
      rw [aspect_text_none text]
      rfl
  | some t =>
      have letters : lastValue? "white-space" (typography t.typography) = none := by
        simp [typography, lastValue?_ite, lastValue?_optional]
      rw [aspect_text text, lastValue?_text (by decide), letters,
        (declares_textBox n t.typography).lastValue? (by decide)]
      cases n.box.layout.sizing.horizontal.isHug <;> simp

/-! ### Sizes -/

theorem lastValue?_sizeProperty (axis : Direction) :
    lastValue? (sizeProperty axis) (size parent n axis) =
      n.sizeText? axis (fun v => px (fixedSize n axis v)) "100%" := by
  have shrink : "flex-shrink" ≠ sizeProperty axis := by cases axis <;> decide
  have flex : "flex" ≠ sizeProperty axis := by cases axis <;> decide
  have self : "align-self" ≠ sizeProperty axis := by cases axis <;> decide
  unfold size Node.sizeText?
  cases n.box.layout.sizing.along axis with
  | fixed v => simp [lastValue?_ite, shrink]
  | hug => rfl
  | fill => cases n.box.layout.placement <;> simp [lastValue?_ite, flex, self]

theorem lastValue?_flex (axis : Direction) : lastValue? "flex" (size parent n axis) =
    if flowAround? parent n = some axis ∧ (n.box.layout.sizing.along axis).isFill = true then
      some "1 1 0"
    else none := by
  have own : sizeProperty axis ≠ "flex" := by cases axis <;> decide
  unfold size
  cases n.box.layout.sizing.along axis with
  | fixed v => simp [lastValue?_ite, own, Design.Extent.isFill]
  | hug => simp [Design.Extent.isFill]
  | fill =>
      cases placed : n.box.layout.placement with
      | root => simp [own, Design.flowAround?_root placed]
      | flow | absolute left top => simp [lastValue?_ite, Design.Extent.isFill]

theorem lastValue?_alignSelf (laid : n.LaidOut parent) (axis : Direction) :
    lastValue? "align-self" (size parent n axis) =
      if (flowAround? parent n).any (· != axis) = true ∧
          (n.box.layout.sizing.along axis).isFill = true then
        some "stretch"
      else none := by
  have own : sizeProperty axis ≠ "align-self" := by cases axis <;> decide
  have known := laid.fill axis
  unfold size
  cases extent : n.box.layout.sizing.along axis with
  | fixed v => simp [lastValue?_ite, own, Design.Extent.isFill]
  | hug => simp [Design.Extent.isFill]
  | fill =>
      cases placed : n.box.layout.placement with
      | root => simp [own, Design.flowAround?_root placed]
      | flow | absolute left top =>
          rw [extent, placed] at known
          cases around : flowAround? parent n with
          | none => simp [around] at known
          | some d => by_cases same : d = axis <;> simp [same, Design.Extent.isFill]

theorem lastValue?_flexShrink (axis : Direction) :
    lastValue? "flex-shrink" (size parent n axis) =
      if flowAround? parent n = some axis ∧
          (n.box.layout.sizing.along axis).fixed?.isSome = true then
        some "0"
      else none := by
  have own : sizeProperty axis ≠ "flex-shrink" := by cases axis <;> decide
  unfold size
  cases n.box.layout.sizing.along axis with
  | fixed v => simp [lastValue?_ite, own, Design.Extent.fixed?]
  | hug => simp [Design.Extent.fixed?]
  | fill => cases n.box.layout.placement <;> simp [lastValue?_ite, own, Design.Extent.fixed?]

theorem grows_declarations :
    decide (value? "flex" (declarations parent n) = some "1 1 0") = n.grows parent := by
  rw [value?_of_aspect .size [] nofun (by decide), aspect, lastValue?_append,
    lastValue?_flex, lastValue?_flex, Node.grows]
  cases flowAround? parent n with
  | none => rfl
  | some d => cases d <;> simp

theorem stretches_declarations (laid : n.LaidOut parent) :
    decide (value? "align-self" (declarations parent n) = some "stretch") = n.stretches parent := by
  rw [value?_of_aspect .size [] nofun (by decide), aspect, lastValue?_append,
    lastValue?_alignSelf laid, lastValue?_alignSelf laid, Node.stretches]
  cases flowAround? parent n with
  | none => rfl
  | some d => cases d <;> simp [Design.Sizing.along, Design.Sizing.across]

theorem rigid_declarations : decide (value? "flex-shrink" (declarations parent n) = some "0") =
    (flowAround? parent n).any fun axis => (n.box.layout.sizing.along axis).fixed?.isSome := by
  rw [value?_of_aspect .size [] nofun (by decide), aspect, lastValue?_append,
    lastValue?_flexShrink, lastValue?_flexShrink, Bool.eq_iff_iff]
  cases flowAround? parent n with
  | none => simp
  | some d => cases d <;> simp [Option.isSome_iff_ne_none]

/-- The sizes are declared each for its own axis. -/
theorem value?_sizeProperty (axis : Direction) :
    value? (sizeProperty axis) (declarations parent n) =
      lastValue? (sizeProperty axis) (size parent n axis) := by
  rw [value?_of_aspect .size [] nofun (by cases axis <;> decide), aspect, lastValue?_append]
  cases axis with
  | horizontal =>
      rw [(declares_size parent n .vertical).lastValue? (by decide)]
      rfl
  | vertical =>
      rw [(declares_size parent n .horizontal).lastValue? (by decide)]
      exact Option.or_none

theorem px_ne_all (v : Float) : px v ≠ "100%" := by
  intro same
  have sign : '%' ∈ (px v).toList := by
    rw [same]
    decide
  rw [px, String.toList_append, List.mem_append] at sign
  exact sign.elim ((Decimal.within_plain v).not_mem (by decide)) (by decide)

theorem sizeCase_declarations (laid : n.LaidOut parent) (axis : Direction) :
    sizeCase (flowAround? parent n) (declarations parent n) axis = n.sizeCase parent axis := by
  rw [sizeCase, value?_sizeProperty, lastValue?_sizeProperty, grows_declarations,
    stretches_declarations laid]
  exact laid.read_sizeText? axis fun v => px_ne_all _

/-! ### Flows -/

theorem px_ne_zero {v : Float} (known : v = 0.0 ∨ 0.0 < v) :
    (px v != "0px") = decide (0.005 ≤ v) := by
  have number : px v = "0px" ↔ Decimal.plain v = "0" := by
    have zero : "0px" = "0" ++ "px" := by decide
    rw [px, zero, String.append_left_inj]
  rw [Bool.eq_iff_iff, bne_iff_ne, Ne, number, decide_eq_true_eq]
  rcases known with rfl | positive
  · refine iff_of_false (fun other => other ?_) Decimal.not_half_hundredth_le_zero
    decide +kernel
  · rw [Decimal.plain_eq_zero_iff positive, Decidable.not_not]

theorem blank_not_mem_px (v : Float) : ' ' ∉ (px v).toList := by
  rw [px, String.toList_append, List.mem_append, not_or]
  exact ⟨(Decimal.within_plain v).not_mem (by decide), by decide⟩

theorem splitChars_px (v : Float) : Text.splitChars ' ' (px v).toList = [(px v).toList] :=
  Text.splitChars_of_not_mem (blank_not_mem_px v)

theorem splitChars_px_append (v : Float) (others : String) :
    Text.splitChars ' ' (px v ++ " " ++ others).toList =
      (px v).toList :: Text.splitChars ' ' others.toList := by
  have blank : (px v ++ " " ++ others).toList = (px v).toList ++ ' ' :: others.toList := by simp
  rw [blank, Text.splitChars_append, splitChars_px, List.singleton_append]

/-- The sides of a padding are read as they are written, in one, two or four lengths. -/
theorem sides_padding {p : Design.Padding}
    (known : ∀ v ∈ p.lengths, v = 0.0 ∨ 0.0 < v) : sides (padding p) = p.sides 0.005 := by
  have written : ∀ v ∈ p.lengths, (px v != "0px") = decide (0.005 ≤ v) :=
    fun v member => px_ne_zero (known v member)
  simp only [Design.Padding.lengths, List.forall_mem_cons] at written
  obtain ⟨top, right, bottom, left, -⟩ := written
  rw [padding]
  split
  · rename_i uniform
    rw [p.sides_of_isUniform uniform, sides, splitChars_px]
    simp only [List.map_cons, List.map_nil, String.ofList_toList, top]
  · split
    · rename_i symmetric
      rw [p.sides_of_isSymmetric symmetric, sides, splitChars_px_append, splitChars_px]
      simp only [List.map_cons, List.map_nil, String.ofList_toList, top, left]
    · rw [sides]
      simp only [String.append_assoc]
      rw [← String.append_assoc, splitChars_px_append, ← String.append_assoc,
        splitChars_px_append, ← String.append_assoc, splitChars_px_append, splitChars_px]
      simp only [List.map_cons, List.map_nil, String.ofList_toList, top, right, bottom, left,
        Design.Padding.sides]

/-- A node without text declares a flow container by its flow. -/
theorem value?_of_flow (plain : n.box.style.text = none) (own : property ∈ flowProperties) :
    value? property (declarations parent n) = lastValue? property (flowOf n) := by
  have apart : ∀ p ∈ flowProperties, ∀ b ∈ Aspect.all, b ∉ [.flow, .text] →
      p ∉ aspectProperties b := by decide
  refine value?_of_aspect .flow [.text] ?_ (apart property own)
  exact List.forall_mem_singleton.mpr (aspect_text_none plain)

/-- A text declares a flow container by its box. -/
theorem value?_of_textBox (laid : n.LaidOut parent) {t : Design.TextStyle}
    (text : n.box.style.text = some t) (own : property ∈ flowProperties) :
    value? property (declarations parent n) = lastValue? property (textBox n t.typography) := by
  have tables : ∀ p ∈ flowProperties, (∀ b ∈ Aspect.all, b ∉ [.text, .flow] →
      p ∉ aspectProperties b) ∧ p ∉ textPaintProperties ∧ "font-family" ≠ p ∧
      p ∉ letterProperties ∧ "white-space" ≠ p := by decide
  obtain ⟨apart, paint, family, letter, line⟩ := tables property own
  have unflowed : aspect parent n .flow = [] := by
    rw [aspect, flowOf, laid.text (by rw [text]; rfl)]
  have letters : lastValue? property (typography t.typography) = none := by
    obtain ⟨letters, listed, declares⟩ := declares_typography t.typography
    rw [listed, lastValue?_cons, declares.lastValue? letter, if_neg family]
    rfl
  rw [value?_of_aspect .text [.flow] (List.forall_mem_singleton.mpr unflowed) apart,
    aspect_text text, lastValue?_text paint, letters, lastValue?_ite]
  simp [line]

theorem textBox_cases (n : Node) (t : Design.Typography) :
    (n.textFlex? t = none ∧ textBox n t = []) ∨
      ∃ d, n.textFlex? t = some (Design.pushedDown d) ∧
        textBox n t = [⟨"display", "flex"⟩, ⟨"flex-direction", "column"⟩,
          ⟨"justify-content", justify d⟩] := by
  unfold Node.textFlex? textBox
  cases n.box.layout.sizing.vertical.fixed? with
  | none => cases t.alignVertical <;> exact .inl ⟨rfl, rfl⟩
  | some v =>
      cases t.alignVertical with
      | top => exact .inl ⟨rfl, rfl⟩
      | center => exact .inr ⟨.center, rfl, rfl⟩
      | bottom => exact .inr ⟨.finish, rfl, rfl⟩

theorem readJustify_justify (d : Design.Distribution) : readJustify (some (justify d)) = d := by
  cases d <;> decide

theorem readAlign_align (a : Design.Alignment) : readAlign (align a) = a := by
  cases a <;> decide

theorem flexFacts?_declarations (laid : n.LaidOut parent) :
    flexFacts? (declarations parent n) = n.flexFacts? 0.005 := by
  unfold flexFacts? Node.flexFacts?
  cases text : n.box.style.text with
  | some t =>
      have box : ∀ {p}, p ∈ flowProperties → value? p (declarations parent n) =
          lastValue? p (textBox n t.typography) := value?_of_textBox laid text
      rw [box (by decide), box (by decide), box (by decide), box (by decide), box (by decide),
        box (by decide), laid.text (by rw [text]; rfl)]
      simp only [Option.bind_some]
      rcases textBox_cases n t.typography with ⟨said, declared⟩ | ⟨d, said, declared⟩
      · rw [said, declared]
        rfl
      · rw [said, declared]
        simp [readJustify_justify, Design.pushedDown]
  | none =>
      have own : ∀ {p}, p ∈ flowProperties → value? p (declarations parent n) =
          lastValue? p (flowOf n) := value?_of_flow text
      rw [own (by decide), own (by decide), own (by decide), own (by decide), own (by decide),
        own (by decide), flowOf]
      cases mode : n.box.layout.mode with
      | absolute => rfl
      | flow f =>
          have display : lastValue? "display" (flow f) = some "flex" := by
            simp [flow, lastValue?_ite]
          have direction : lastValue? "flex-direction" (flow f) =
              some (flexDirection f.direction) := by
            simp [flow, lastValue?_ite]
          have distribution : lastValue? "justify-content" (flow f) =
              some (justify f.distribution) := by
            simp [flow, lastValue?_ite]
          have alignment : lastValue? "align-items" (flow f) = some (align f.alignment) := by
            simp [flow, lastValue?_ite]
          have gap : lastValue? "gap" (flow f) =
              if f.gap > 0.0 then some (px f.gap) else none := by
            simp [flow, lastValue?_ite]
          have wraps : lastValue? "flex-wrap" (flow f) = if f.wraps then some "wrap" else none := by
            simp [flow, lastValue?_ite]
          have least := px_ne_zero (laid.lengths f mode f.gap List.mem_cons_self)
          simp only [display, direction, distribution, alignment, gap, wraps, if_true,
            readJustify_justify, Design.Flow.flexFacts, Option.map_some, readAlign_align]
          congr 2
          · cases f.direction <;> decide
          · split
            · rw [Option.map_some, least]
            · rfl
          · cases f.wraps <;> decide

theorem padding_declarations (laid : n.LaidOut parent) :
    ((value? "padding" (declarations parent n)).map sides).getD .none =
      (n.box.layout.flow?.map (·.padding.sides 0.005)).getD .none := by
  cases text : n.box.style.text with
  | some t =>
      have unflowed : n.box.layout.flow? = none := by
        rw [Design.Layout.flow?, laid.text (by rw [text]; rfl)]
        rfl
      rw [value?_of_textBox laid text (by decide),
        (declares_textBox n t.typography).lastValue? (by decide), unflowed]
      rfl
  | none =>
      rw [value?_of_flow text (by decide), flowOf, Design.Layout.flow?]
      cases mode : n.box.layout.mode with
      | absolute => rfl
      | flow f =>
          have declared : lastValue? "padding" (flow f) =
              if f.padding.isZero then none else some (padding f.padding) := by
            simp [flow, lastValue?_ite]
          simp only [declared, Design.Mode.flow?, Option.map_some, Option.getD_some]
          split
          · rename_i zero
            exact (Design.Padding.sides_of_isZero Decimal.not_half_hundredth_le_zero zero).symm
          · exact sides_padding fun v member =>
              laid.lengths f mode v (List.mem_cons_of_mem _ member)

/-- The declarations of a node say of its layout what the design says, where a length of less than
half a hundredth counts as zero. -/
theorem layoutFacts_declarations (laid : n.LaidOut parent) :
    layoutFacts (flowAround? parent n) (declarations parent n) = n.layoutFacts 0.005 parent := by
  simp only [layoutFacts, Node.layoutFacts, positioning_declarations, flexFacts?_declarations laid,
    padding_declarations laid, sizeCase_declarations laid, rigid_declarations,
    textAlign_declarations, unbroken_declarations, clips_declarations, rotation_declarations,
    aboutCorner_declarations]

end

end Handoff.Css
