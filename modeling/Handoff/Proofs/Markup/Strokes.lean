import Handoff.Proofs.FullWidth
import Handoff.Proofs.Markup.Omissions
import Handoff.Proofs.Reporting
import Handoff.Proofs.Tailwind.Layout

/-!
What becomes of the strokes of a node in markup.

A box has its topmost stroke in a border, an outline or the image of a border, and a line has a
stroke of one color as its background; of a stroke that is an image there is a warning.  Texts and
images are written without a look at their strokes, and so is a line if none of its strokes is of
one color (`PassesStroke`).

The main statement is `strokesKept_of_build`.
-/

namespace Handoff

open Design (Box Node Paint)

/-- The strokes of a node are passed over. -/
def Markup.PassesStroke (n : Node) : Prop :=
  n.box.style.text.isSome = true ∨ n.box.kind = .image ∨
    n.box.kind.isLine = true ∧ n.box.style.topSolidStroke? = none

/-! ## Declarations -/

namespace Css

/-- The text of a stroke in a declaration; an image has none. -/
def strokeText? : Design.Fill → Option String
  | .solid c => some c.color.css
  | .linearGradient angle stops => some (linearGradient angle stops)
  | .image _ _ => none

/-- The properties that a stroke of a node may be in. -/
def strokeProperties (n : Node) : List String :=
  if n.box.kind.isLine then ["background"] else ["border", "outline", "border-image"]

/-- A declaration draws one of the strokes of a node. -/
structure DrawsStroke (n : Node) (d : Declaration) : Prop where
  property : d.property ∈ strokeProperties n
  value : ∃ p ∈ n.box.style.strokes, ∃ text, strokeText? p.fill = some text ∧
    text.toList <:+: d.value.toList

section

variable {parent : Option Node} {n : Node} {d : Declaration}

theorem strokeProperties_subset (n : Node) :
    strokeProperties n ⊆ ["background", "border", "outline", "border-image"] := by
  unfold strokeProperties
  split <;> simp

/-- What stands before the contents of a node, and what stands after, by its properties. -/
theorem declares_beside (parent : Option Node) (n : Node) :
    Declares (placementProperties ++ flowProperties ++ sizeProperties .horizontal ++
        sizeProperties .vertical)
      (placement n ++ flowOf n ++ size parent n .horizontal ++ size parent n .vertical) ∧
    Declares (["border-radius"] ++ effectProperties ++ finishProperties)
      (corners n ++ effects n ++ finish n) := by
  simp only [declares_append]
  refine ⟨⟨⟨⟨?placed, ?flow⟩, ?wide⟩, ?high⟩, ⟨?rounded, ?effects⟩, ?finished⟩
  case placed => exact (declares_placement n).mono (by decide)
  case flow => exact (declares_flowOf n).mono (by decide)
  case wide => exact (declares_size parent n .horizontal).mono (by decide)
  case high => exact (declares_size parent n .vertical).mono (by decide)
  case rounded => exact (declares_corners n).mono (by decide)
  case effects => exact (declares_effects n).mono (by decide)
  case finished => exact (declares_finish n).mono (by decide)

/-- Nothing beside the contents of a node is of a property of strokes. -/
theorem property_ne_beside (parent : Option Node) {property : String}
    (stroke : property ∈ strokeProperties n) :
    (∀ d ∈ placement n ++ flowOf n ++ size parent n .horizontal ++ size parent n .vertical,
      d.property ≠ property) ∧
    ∀ d ∈ corners n ++ effects n ++ finish n, d.property ≠ property := by
  obtain ⟨before, after⟩ := declares_beside parent n
  have apart : ∀ property ∈ ["background", "border", "outline", "border-image"],
      property ∉ placementProperties ++ flowProperties ++ sizeProperties .horizontal ++
          sizeProperties .vertical ∧
        property ∉ ["border-radius"] ++ effectProperties ++ finishProperties := by decide
  obtain ⟨early, late⟩ := apart property (strokeProperties_subset n stroke)
  exact ⟨before.property_ne early, after.property_ne late⟩

theorem mem_content_of_mem_declarations (member : d ∈ declarations parent n)
    (stroke : d.property ∈ strokeProperties n) : d ∈ content n := by
  obtain ⟨before, after⟩ := property_ne_beside parent stroke
  rw [declarations_eq] at member
  have inside : d ∈ (placement n ++ flowOf n ++ size parent n .horizontal ++
      size parent n .vertical) ++ content n ++ (corners n ++ effects n ++ finish n) := by
    simpa only [List.append_assoc] using mem_of_mem_settle member
  rcases List.mem_append.mp inside with first | late
  · rcases List.mem_append.mp first with early | own
    · exact absurd rfl (before d early)
    · exact own
  · exact absurd rfl (after d late)

/-- A stroke among the contents of a node stays if none after it there is of its property. -/
theorem mem_declarations_of_content {first later : List Declaration}
    (contents : content n = first ++ d :: later) (last : ∀ e ∈ later, e.property ≠ d.property)
    (stroke : d.property ∈ strokeProperties n) : d ∈ declarations parent n := by
  have after := (property_ne_beside parent stroke).2
  have split : placement n ++ flowOf n ++ size parent n .horizontal ++ size parent n .vertical ++
      content n ++ corners n ++ effects n ++ finish n =
        (placement n ++ flowOf n ++ size parent n .horizontal ++ size parent n .vertical ++
          first) ++ d :: (later ++ (corners n ++ effects n ++ finish n)) := by
    simp only [contents, List.append_assoc, List.cons_append]
  rw [declarations_eq, split]
  exact mem_settle _ (List.forall_mem_append.mpr ⟨last, after⟩)

/-- A text has no property that a box has its strokes in. -/
theorem property_ne_text (t : Design.TextStyle) {property : String}
    (stroke : property ∈ ["border", "outline", "border-image"]) :
    ∀ d ∈ text n t, d.property ≠ property := by
  have apart : ∀ property ∈ ["border", "outline", "border-image"],
      property ∉ textPaintProperties ∧ property ∉ "font-family" :: letterProperties ∧
        property ∉ textBoxProperties ∧ "white-space" ≠ property := by decide
  obtain ⟨paint, letter, box, line⟩ := apart property stroke
  obtain ⟨letters, listed, declares⟩ := declares_typography t.typography
  rw [List.mem_cons, not_or] at letter
  intro d member
  simp only [text, listed, List.mem_append, List.mem_cons] at member
  rcases member with ((painted | rfl | spelled) | boxed) | broken
  · exact (declares_textPaint _).property_ne paint d painted
  · exact Ne.symm letter.1
  · exact declares.property_ne letter.2 d spelled
  · exact (declares_textBox n _).property_ne box d boxed
  · split at broken
    · rw [List.mem_singleton.mp broken]
      exact line
    · cases broken

/-- No declaration draws what is passed over. -/
theorem not_drawsStroke (formed : n.box.WellFormed) (passed : Markup.PassesStroke n)
    (member : d ∈ declarations parent n) : ¬DrawsStroke n d := by
  rintro ⟨property, p, among, text, written, part⟩
  have own := mem_content_of_mem_declarations member property
  cases style : n.box.style.text with
  | some t =>
      have kind : n.box.kind = .text := formed.text_iff.mp (by rw [style]; rfl)
      have box : strokeProperties n = ["border", "outline", "border-image"] := by
        simp [strokeProperties, kind, Design.Kind.isLine]
      rw [content_of_text style] at own
      exact property_ne_text t (box ▸ property) d own rfl
  | none =>
      rcases passed with present | image | ⟨line, none⟩
      · rw [style] at present
        cases present
      · simp [content, style, image, Design.Kind.isLine] at own
      · simp [content, style, line, none, optional] at own

theorem exists_solid_of_topSolidStroke? {c : Design.ColorRef}
    (top : n.box.style.topSolidStroke? = some c) :
    ∃ p ∈ n.box.style.strokes, p.fill = .solid c := by
  obtain ⟨p, among, solid⟩ := List.exists_of_findSome?_eq_some top
  refine ⟨p, List.mem_reverse.mp among, ?_⟩
  unfold Design.Paint.solid? at solid
  split at solid
  · rename_i fill
    rw [fill, Option.some.inj solid]
  · cases solid

/-- The topmost stroke of a box is in its border, unless it is an image. -/
theorem border_eq {stroke : Design.Stroke} {top : Paint}
    (stroked : n.box.style.stroke = some stroke)
    (last : n.box.style.strokes.getLast? = some top)
    (drawn : ∀ hash scaleMode, top.fill ≠ .image hash scaleMode) :
    ∃ before d after, border n = before ++ d :: after ∧ (∀ e ∈ after, e.property ≠ d.property) ∧
      d.property ∈ ["border", "outline", "border-image"] ∧
      ∃ text, strokeText? top.fill = some text ∧ text.toList <:+: d.value.toList := by
  unfold border
  rw [stroked, last]
  dsimp only
  cases fill : top.fill with
  | solid c =>
      have part : c.color.css.toList <:+:
          (px stroke.weight ++ " solid " ++ c.color.css).toList := by
        rw [String.toList_append]
        exact (List.suffix_append _ _).isInfix
      cases stroke.align with
      | outside => exact ⟨[], _, [], rfl, List.forall_mem_nil _, by simp, _, rfl, part⟩
      | inside => exact ⟨[], _, [_], rfl, by simp, by simp, _, rfl, part⟩
      | center => exact ⟨[], _, [], rfl, List.forall_mem_nil _, by simp, _, rfl, part⟩
  | linearGradient angle stops =>
      have part : (linearGradient angle stops).toList <:+:
          (linearGradient angle stops ++ " 1").toList := by
        rw [String.toList_append]
        exact (List.prefix_append _ _).isInfix
      exact ⟨[_], _, [], rfl, List.forall_mem_nil _, by simp, _, rfl, part⟩
  | image hash scaleMode => exact absurd fill (drawn hash scaleMode)

/-- A stroke that is not passed over is drawn, or else there is a warning that it is an image. -/
theorem exists_drawsStroke (formed : n.box.WellFormed)
    (stroked : n.box.style.stroke.isSome = true) (kept : ¬Markup.PassesStroke n) :
    (∃ d ∈ declarations parent n, DrawsStroke n d) ∨ .imageStroke ∈ omissions n := by
  simp only [Markup.PassesStroke, not_or, not_and, Option.not_isSome_iff_eq_none, ← Ne.eq_def,
    Option.ne_none_iff_exists'] at kept
  obtain ⟨plain, photo, solid⟩ := kept
  by_cases line : n.box.kind.isLine = true
  · obtain ⟨c, top⟩ := solid line
    obtain ⟨p, among, fill⟩ := exists_solid_of_topSolidStroke? top
    have listed : "background" ∈ strokeProperties n := by simp [strokeProperties, line]
    have contents : content n = [⟨"background", c.color.css⟩] := by
      simp [content, plain, line, top, optional]
    have declared : ⟨"background", c.color.css⟩ ∈ declarations parent n :=
      @mem_declarations_of_content parent n _ [] [] contents (List.forall_mem_nil _) listed
    refine .inl ⟨_, declared, listed, p, among, c.color.css, ?_, List.infix_rfl⟩
    rw [fill]
    rfl
  · obtain ⟨stroke, given⟩ := Option.isSome_iff_exists.mp stroked
    obtain ⟨top, last⟩ : ∃ top, n.box.style.strokes.getLast? = some top :=
      ⟨_, List.getLast?_eq_some_getLast (formed.stroke_iff.mp stroked)⟩
    by_cases drawn : ∀ hash scaleMode, top.fill ≠ .image hash scaleMode
    · obtain ⟨before, d, after, framed, apart, listed, value⟩ := border_eq given last drawn
      have property : d.property ∈ strokeProperties n := by
        rwa [strokeProperties, if_neg line]
      have contents : content n = (background n n.box.style.fills ++ before) ++ d :: after := by
        simp [content, plain, line, photo, framed]
      exact .inl ⟨d, mem_declarations_of_content contents apart property, property, top,
        List.mem_of_getLast? last, value⟩
    · simp only [not_forall, not_not] at drawn
      obtain ⟨hash, scaleMode, fill⟩ := drawn
      right
      simp [omissions, contentOmissions, plain, line, photo, borderOmissions, given, last, fill]

end

end Css

/-! ## Classes -/

namespace Tailwind

/-- The stems that a stroke of one color may be the suffix of. -/
def strokeStems (n : Node) : List String :=
  if n.box.kind.isLine then ["bg"] else ["border", "outline"]

/-- A class draws one of the strokes of a node. -/
def DrawsStroke (n : Node) (name : String) : Prop :=
  ∃ p ∈ n.box.style.strokes,
    (∃ c, p.fill = .solid c ∧ ∃ stem ∈ strokeStems n, name = (Utility.named stem (color c)).text) ∨
      ∃ angle stops, p.fill = .linearGradient angle stops ∧
        name = "[border-image:" ++ arbitrary (Css.linearGradient angle stops) ++ "_1]"

/-- What is asked for to find a stroke. -/
def strokeQueries (n : Node) : List Query :=
  (strokeStems n).map .after ++ [.front "[border-image:"]

section

variable {rounding : Bool} {parent : Option Node} {n : Node} {u : Utility}

/-- A class that draws a stroke is found. -/
theorem listed_of_drawsStroke (draws : DrawsStroke n u.text) : Listed (strokeQueries n) u := by
  obtain ⟨p, -, ⟨c, -, stem, listed, name⟩ | ⟨angle, stops, -, name⟩⟩ := draws
  · refine ⟨.after stem, List.mem_append_left _ (List.mem_map_of_mem listed), ?_⟩
    rw [name, read?_after_named]
    rfl
  · refine ⟨_, List.mem_append_right _ (List.mem_singleton_self _), ?_⟩
    rw [name, String.append_assoc, Query.read?_front_append]
    rfl

/-- The names of corners and effects, the shadow of letters among them. -/
def shapeNames : List Query :=
  [.front "rounded", .front "blur", .front "backdrop-blur", .front "[text-shadow:",
    .after "shadow"]

theorem spelled_shape (rounding : Bool) (n : Node) :
    Spelled shapeNames (corners rounding n ++ effects rounding n) := by
  have corner (stem : String) (r : Float) (begins : "rounded".toList <+: stem.toList) :
      Spelled shapeNames (corner rounding stem r) := by
    unfold Tailwind.corner
    simp +decide [listed_front begins]
  have rounded : Spelled shapeNames (corners rounding n) := by
    unfold corners
    split
    · exact spelled_cons.mpr ⟨listed_stem (by decide), spelled_nil⟩
    · split
      · exact spelled_nil
      · exact spelled_cons.mpr ⟨listed_stem (by decide), spelled_nil⟩
      · simp only [spelled_append]
        exact ⟨⟨⟨corner _ _ (by decide), corner _ _ (by decide)⟩, corner _ _ (by decide)⟩,
          corner _ _ (by decide)⟩
  have blurred : Spelled shapeNames (n.box.style.effects.flatMap (blur rounding)) := by
    intro u member
    obtain ⟨e, -, own⟩ := List.mem_flatMap.mp member
    cases e with
    | dropShadow | innerShadow => cases own
    | layerBlur | backgroundBlur =>
        rw [List.mem_singleton.mp own]
        exact listed_stem (by decide)
  have letters (css : String) : Listed shapeNames (.bare ("[text-shadow:" ++ css ++ "]")) := by
    refine ⟨.front "[text-shadow:", by decide, ?_⟩
    rw [Utility.bare, Utility.text, Suffix.after, String.append_assoc, Query.read?_front_append]
    rfl
  have box (css : String) : Listed shapeNames (.named "shadow" ("[" ++ css ++ "]")) :=
    listed_named (by decide)
  refine spelled_append.mpr ⟨rounded, spelled_append.mpr ⟨blurred, ?_⟩⟩
  split
  · split <;> simp [letters]
  · split <;> simp [box]

/-- The names of all that is beside the contents of a node. -/
def besideNames : List Query :=
  placementNames ++ flowNames ++ sizeNames .horizontal ++ sizeNames .vertical ++ shapeNames ++
    finishNames

theorem spelled_beside (rounding : Bool) (parent : Option Node) (n : Node) :
    Spelled besideNames (placement rounding n ++ flowOf rounding n ++
      size rounding parent n .horizontal ++ size rounding parent n .vertical) ∧
    Spelled besideNames (corners rounding n ++ effects rounding n ++ finish n) := by
  have flowed : Spelled besideNames (flowOf rounding n) :=
    (spelled_aspect rounding parent n .flow).mono (by decide)
  have shaped : Spelled besideNames (corners rounding n ++ effects rounding n) :=
    (spelled_shape rounding n).mono (by decide)
  refine ⟨?_, spelled_append.mpr ⟨shaped, (spelled_finish n).mono (by decide)⟩⟩
  simp only [spelled_append, flowed, and_true]
  refine ⟨⟨?placed, ?wide⟩, ?high⟩
  case placed => exact (spelled_placement rounding n).mono (by decide)
  case wide => exact (spelled_size rounding parent n .horizontal).mono (by decide)
  case high => exact (spelled_size rounding parent n .vertical).mono (by decide)

/-- Only what fills a node has classes that draw strokes. -/
theorem mem_content_of_listed (member : u ∈ classes rounding parent n)
    (listed : Listed (strokeQueries n) u) : u ∈ content rounding n := by
  have queries : strokeQueries n ⊆
      [.after "bg", .after "border", .after "outline", .front "[border-image:"] := by
    unfold strokeQueries strokeStems
    split <;> decide
  have apart : ∀ q ∈ [Query.after "bg", .after "border", .after "outline",
      .front "[border-image:"], ∀ p ∈ besideNames, q.apart p = true := by decide
  have other : ¬Listed besideNames u := by
    intro beside
    obtain ⟨q, asked, answered⟩ := listed
    rw [beside.read? (apart q (queries asked))] at answered
    cases answered
  obtain ⟨before, after⟩ := spelled_beside rounding parent n
  have inside : u ∈ (placement rounding n ++ flowOf rounding n ++
      size rounding parent n .horizontal ++ size rounding parent n .vertical) ++
        content rounding n ++ (corners rounding n ++ effects rounding n ++ finish n) := by
    simpa only [classes_eq, List.append_assoc] using member
  rcases List.mem_append.mp inside with first | late
  · rcases List.mem_append.mp first with early | own
    · exact absurd (before u early) other
    · exact own
  · exact absurd (after u late) other

/-- No class draws what is passed over. -/
theorem not_drawsStroke (formed : n.box.WellFormed) (passed : Markup.PassesStroke n)
    {name : String} (member : name ∈ names (classes rounding parent n)) :
    ¬DrawsStroke n name := by
  obtain ⟨u, among, rfl⟩ := List.mem_map.mp member
  intro draws
  have listed := listed_of_drawsStroke draws
  have own := mem_content_of_listed among listed
  cases style : n.box.style.text with
  | some t =>
      have kind : n.box.kind = .text := formed.text_iff.mp (by rw [style]; rfl)
      have box :
          strokeQueries n = [.after "border", .after "outline", .front "[border-image:"] := by
        simp [strokeQueries, strokeStems, kind, Design.Kind.isLine]
      have apart : ∀ q ∈ [Query.after "border", .after "outline", .front "[border-image:"],
          ∀ p ∈ aspectNames .text, q.apart p = true := by decide
      rw [box] at listed
      obtain ⟨q, asked, answered⟩ := listed
      rw [content, style] at own
      rw [(spelled_text rounding n t u own).read? (apart q asked)] at answered
      cases answered
  | none =>
      rcases passed with present | image | ⟨line, none⟩
      · rw [style] at present
        cases present
      · simp [content, style, image, Design.Kind.isLine] at own
      · simp [content, style, line, none] at own

/-- A stroke that is not passed over has a class, or else there is a warning that it is an image. -/
theorem exists_drawsStroke (formed : n.box.WellFormed)
    (stroked : n.box.style.stroke.isSome = true) (kept : ¬Markup.PassesStroke n) :
    (∃ name ∈ names (classes rounding parent n), DrawsStroke n name) ∨
      .imageStroke ∈ Css.omissions n := by
  have written {u : Utility} (own : u ∈ content rounding n) (draws : DrawsStroke n u.text) :
      ∃ name ∈ names (classes rounding parent n), DrawsStroke n name := by
    refine ⟨u.text, List.mem_map_of_mem ?_, draws⟩
    rw [classes_eq]
    simp [own]
  simp only [Markup.PassesStroke, not_or, not_and, Option.not_isSome_iff_eq_none, ← Ne.eq_def,
    Option.ne_none_iff_exists'] at kept
  obtain ⟨plain, photo, solid⟩ := kept
  by_cases line : n.box.kind.isLine = true
  · obtain ⟨c, top⟩ := solid line
    obtain ⟨p, among, fill⟩ := Css.exists_solid_of_topSolidStroke? top
    have contents : content rounding n = [.named "bg" (color c)] := by
      simp [content, plain, line, top]
    have stem : "bg" ∈ strokeStems n := by simp [strokeStems, line]
    exact .inl (written (contents ▸ List.mem_singleton_self _)
      ⟨p, among, .inl ⟨c, fill, "bg", stem, rfl⟩⟩)
  · obtain ⟨stroke, given⟩ := Option.isSome_iff_exists.mp stroked
    obtain ⟨top, last⟩ : ∃ top, n.box.style.strokes.getLast? = some top :=
      ⟨_, List.getLast?_eq_some_getLast (formed.stroke_iff.mp stroked)⟩
    have among := List.mem_of_getLast? last
    have stems : strokeStems n = ["border", "outline"] := by rw [strokeStems, if_neg line]
    have inside {u : Utility} (own : u ∈ border rounding n) : u ∈ content rounding n := by
      simp [content, plain, line, photo, own]
    cases fill : top.fill with
    | solid c =>
        by_cases outside : stroke.align = .outside
        · have own : .named "outline" (color c) ∈ border rounding n := by
            simp [border, given, last, fill, outside]
          exact .inl (written (inside own)
            ⟨top, among, .inl ⟨c, fill, "outline", by simp [stems], rfl⟩⟩)
        · have own : .named "border" (color c) ∈ border rounding n := by
            simp [border, given, last, fill, outside]
          exact .inl (written (inside own)
            ⟨top, among, .inl ⟨c, fill, "border", by simp [stems], rfl⟩⟩)
    | linearGradient angle stops =>
        have own :
            .bare ("[border-image:" ++ arbitrary (Css.linearGradient angle stops) ++ "_1]") ∈
              border rounding n := by
          simp [border, given, last, fill]
        exact .inl (written (inside own) ⟨top, among, .inr ⟨angle, stops, fill, rfl⟩⟩)
    | image hash scaleMode =>
        right
        simp [Css.omissions, Css.contentOmissions, plain, line, photo, Css.borderOmissions, given,
          last, fill]

end

end Tailwind

/-! ## Elements and warnings -/

namespace Markup

variable {forest : List Node}

/-- Each node has its element among those of the forest. -/
theorem elementOf_mem_listParts (attributes : Attributes) (comments : Bool)
    (forest : List Node) : ∀ parent : Option Node,
    (∀ n ∈ Node.preorderList forest, isLeaf n.box = true → n.children = []) →
      ∀ v ∈ Node.preorderListUnder parent forest, elementOf attributes comments v.1 v.2 ∈
        Element.listParts (elementsOf attributes comments parent forest) := by
  induction forest using Node.forestInduction with
  | nil => exact fun _ _ _ member => nomatch member
  | cons box children rest below after =>
      intro parent leafless v member
      obtain ⟨own, inner, others⟩ := Node.forall_preorderList_mk_cons.mp leafless
      rw [elementsOf, Element.listParts, List.mem_append]
      rw [Node.preorderListUnder_mk_cons, List.mem_cons, List.mem_append] at member
      rcases member with rfl | deeper | later
      · left
        cases elementOf attributes comments parent (.mk box children) <;>
          exact List.mem_cons_self
      · left
        cases leaf : isLeaf box with
        | true =>
            rw [show children = [] from own leaf] at deeper
            cases deeper
        | false =>
            have listed := below _ inner v deeper
            simp only [isLeaf, Bool.or_eq_false_iff, beq_eq_false_iff_ne,
              Option.isSome_eq_false_iff, Option.isNone_iff_eq_none] at leaf
            have plain : box.characters? = none := by rw [Box.characters?, leaf.2]; rfl
            rw [elementOf]
            simp only [leaf.1, plain, if_false, Element.parts]
            exact List.mem_cons_of_mem _ listed
      · exact .inr (after parent others v later)

/-- What is omitted of a node is in a warning. -/
theorem mem_warnings {omissions : Node → List Reason} {n : Node} {reason : Reason}
    (leafless : ∀ n ∈ Node.preorderList forest, isLeaf n.box = true → n.children = [])
    (member : n ∈ Node.preorderList forest) (omitted : reason ∈ omissions n) :
    ⟨n.box.id, reason⟩ ∈ warnings omissions forest := by
  rw [← Node.map_snd_preorderListUnder forest none, ← visitsOfList_eq forest none leafless]
    at member
  obtain ⟨visit, among, rfl⟩ := List.mem_map.mp member
  exact List.mem_flatMap.mpr
    ⟨visit, among, Warning.mem_about.mpr ⟨rfl, List.mem_append_right _ omitted⟩⟩

/-- Nothing is left of the strokes of a node: they are passed over, and there is no warning. -/
structure LosesStroke (n : Node) : Prop where
  passed : PassesStroke n
  unreported : Css.omissions n = []

/-- Where strokes are drawn unless they are passed over or reported, they are lost just where they
are passed over without a warning. -/
theorem stroke_kept_iff {n : Node} {drawn : Prop} (never : PassesStroke n → ¬drawn)
    (otherwise : ¬PassesStroke n → drawn ∨ .imageStroke ∈ Css.omissions n) :
    drawn ∨ Css.omissions n ≠ [] ↔ ¬LosesStroke n := by
  constructor
  · rintro (drawn | reported) ⟨passed, unreported⟩
    · exact never passed drawn
    · exact reported unreported
  · intro kept
    by_cases passed : PassesStroke n
    · exact .inr fun unreported => kept ⟨passed, unreported⟩
    · exact (otherwise passed).imp_right List.ne_nil_of_mem

/-! ## Designs -/

/-- What becomes of the strokes of a node in the markup of its forest. -/
structure StrokesKept (t : Settings) (forest : List Node) (parent : Option Node) (n : Node) :
    Prop where
  html : elementOf (Html.attributes t) false parent n ∈
    Element.listParts (Html.elements t forest)
  tailwind : elementOf (Tailwind.attributes t) t.showLayerNames parent n ∈
    Element.listParts (Tailwind.elements t forest)
  /-- The declarations are on the element or in the rule of its class. -/
  declared : ∀ d ∈ Css.declarations parent n,
    let own := (elementOf (Html.attributes t) false parent n).attributes
    if t.inlineStyle then .style (Css.declarations parent n) ∈ own
    else .classes [Html.className n] ∈ own ∧
      ⟨Html.className n, Css.declarations parent n⟩ ∈ Html.rules forest
  /-- The classes are on the element. -/
  classed : ∀ u ∈ Tailwind.classes t.roundTailwindValues parent n,
    .classes (Tailwind.names (Tailwind.classes t.roundTailwindValues parent n)) ∈
      (elementOf (Tailwind.attributes t) t.showLayerNames parent n).attributes
  reported : ∀ reason ∈ Css.omissions n, ⟨n.box.id, reason⟩ ∈ Framework.html.warnings forest ∧
    ⟨n.box.id, reason⟩ ∈ Framework.tailwind.warnings forest
  html_iff : (∃ d ∈ Css.declarations parent n, Css.DrawsStroke n d) ∨ Css.omissions n ≠ [] ↔
    ¬LosesStroke n
  tailwind_iff : (∃ name ∈ Tailwind.names (Tailwind.classes t.roundTailwindValues parent n),
    Tailwind.DrawsStroke n name) ∨ Css.omissions n ≠ [] ↔ ¬LosesStroke n

/-- A stroke of a node is in its markup or there is a warning about the node, unless the node is a
text, an image or a line whose strokes are passed over. -/
theorem strokesKept_of_build {s : Settings} {host : Option Scene.Node} {roots : List Scene.Node}
    (built : Design.build s host roots = .ok forest) (t : Settings) :
    ∀ v ∈ Node.preorderListUnder none forest, v.2.box.style.stroke.isSome = true →
      StrokesKept t forest v.1 v.2 := by
  intro v member stroked
  have leafless := childless_of_build built
  have among : v.2 ∈ Node.preorderList forest := Node.mem_of_mem_preorderListUnder member
  have formed := (Design.wellFormed_of_mem_build built among).box
  constructor
  case html => exact elementOf_mem_listParts _ _ forest none leafless v member
  case tailwind => exact elementOf_mem_listParts _ _ forest none leafless v member
  case declared =>
    intro d present
    have carried : (if t.inlineStyle then .style (Css.declarations v.1 v.2)
        else .classes [Html.className v.2]) ∈
          (elementOf (Html.attributes t) false v.1 v.2).attributes := by
      refine attributes_subset_elementOf ?_
      rw [Html.attributes, Html.styleAttribute_of_mem present]
      exact List.mem_append_right _ List.mem_cons_self
    split
    · rename_i inline
      rwa [if_pos inline] at carried
    · rename_i classed
      rw [if_neg classed] at carried
      rw [Html.rules_of_build built]
      exact ⟨carried, List.mem_filterMap.mpr ⟨v, member, Html.rule?_of_mem present⟩⟩
  case classed =>
    intro u present
    refine attributes_subset_elementOf ?_
    rw [Tailwind.attributes_of_mem present]
    exact List.mem_singleton_self _
  case reported =>
    intro reason omitted
    refine ⟨mem_warnings leafless among omitted, mem_warnings leafless among ?_⟩
    rwa [Tailwind.omissions_eq_css]
  case html_iff =>
    refine stroke_kept_iff ?_ (Css.exists_drawsStroke formed stroked)
    rintro passed ⟨d, member, draws⟩
    exact Css.not_drawsStroke formed passed member draws
  case tailwind_iff =>
    refine stroke_kept_iff ?_ (Tailwind.exists_drawsStroke formed stroked)
    rintro passed ⟨name, member, draws⟩
    exact Tailwind.not_drawsStroke formed passed member draws

/-- A card with a border. -/
theorem strokesKept_of_build_card :
    let card : Scene.Node := .mk
      { nodeType := "FRAME", strokes := [{ color := some .black }], strokeWeight := 2.0 } []
    let s := Settings.defaults
    let forest := (Design.ofSelection s none [card] .empty).1
    Design.build s none [card] = .ok forest ∧
      ∃ root, forest = [root] ∧ root.box.style.stroke.isSome = true ∧
        StrokesKept s forest none root := by
  intro card s forest
  have built : Design.build s none [card] = .ok forest := rfl
  exact ⟨built, _, rfl, rfl, strokesKept_of_build built s (none, _) List.mem_cons_self rfl⟩

/-- Nothing is left of the border of this photo. -/
theorem not_drawsStroke_photo :
    let photo : Scene.Node := .mk
      { id := "1:1", name := "Photo", nodeType := "RECTANGLE", width := 40.0, height := 20.0,
        fills := [{ paintType := .image, imageHash := some "a" }],
        strokes := [{ color := some .black }], strokeWeight := 2.0 } []
    let s := Settings.defaults
    let forest := (Design.ofSelection s none [photo] .empty).1
    Design.build s none [photo] = .ok forest ∧
      (∃ root, forest = [root] ∧ root.box.style.stroke.isSome = true ∧
        (∀ d ∈ Css.declarations none root, ¬Css.DrawsStroke root d) ∧
        ∀ name ∈ Tailwind.names (Tailwind.classes s.roundTailwindValues none root),
          ¬Tailwind.DrawsStroke root name) ∧
      Framework.html.warnings forest = [] ∧ Framework.tailwind.warnings forest = [] ∧
      Html.code s forest =
        "<img src=\"https://placehold.co/40x20\" style=\"width: 40px; height: 20px\" />" := by
  intro photo s forest
  have built : Design.build s none [photo] = .ok forest := rfl
  refine ⟨built, ⟨_, rfl, rfl, fun d member => ?_, fun name member => ?_⟩, rfl, rfl,
    by decide +kernel⟩
  · exact Css.not_drawsStroke (Design.wellFormed_of_mem_build built List.mem_cons_self).box
      (.inr (.inl rfl)) member
  · exact Tailwind.not_drawsStroke (Design.wellFormed_of_mem_build built List.mem_cons_self).box
      (.inr (.inl rfl)) member

end Markup

end Handoff
