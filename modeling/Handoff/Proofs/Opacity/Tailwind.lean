import Handoff.Proofs.Markup.Omissions
import Handoff.Proofs.Opacity.Html
import Handoff.Proofs.Tailwind.Alphabet

/-!
A fading fill in Tailwind.

A color that fades keeps its name or its digits and gets a share of opacity after a slash, so
slashes tell it apart; a gradient that is written as CSS loses the hash signs of its colors
(`exists_shifts_fillClasses`).  The classes of the fill are among those of the node, whatever the
fill is (`exists_classes`).

The main statement is `Tailwind.artifacts_fades`.
-/

namespace Handoff

open Design (Box Node Paint Fill ColorRef GradientStop layoutOf)
open Markup (Local FillShift attributesTally)
open Text (tally isBlank)

namespace Tailwind

variable {P Q : Paint} {c d : ColorRef} {stops stops' : List GradientStop} {b : Box}

/-! ## Colors -/

/-- The name of a fading color stays, and a slash and a share come after it. -/
theorem color_fades (fades : c.Fades d) : color d = color c ++ "/" ++ "50" := by
  have half : d.color.a = 0.5 := by rw [fades.half]
  have share : percent (Decimal.widen 0.5) = "50" := by decide +kernel
  have digits : d.color.hex = c.color.hex := by
    rw [fades.half]
    rfl
  unfold color
  rw [if_pos (Color.isOpaque_of_full fades.full), if_neg (by
    rw [Color.not_isOpaque_of_half half]
    exact Bool.false_ne_true), half, share, digits, fades.palette]

theorem tally_color_fades (fades : c.Fades d) :
    tally '/' (color d) = tally '/' (color c) + 1 := by
  have signs : tally '/' "/" = 1 ∧ tally '/' "50" = 0 := by decide
  rw [color_fades fades, Text.tally_append, Text.tally_append, signs.1, signs.2]

/-- CSS that is written as a class keeps the occurrences of every sign but blanks and lines. -/
theorem count_arbitraryChars {sign : Char} (blank : sign ≠ ' ') (line : sign ≠ '_')
    (cs : List Char) : (arbitraryChars cs).count sign = cs.count sign := by
  fun_induction arbitraryChars cs with
  | case1 => rfl
  | case2 cs ih =>
      rw [List.count_cons, List.count_cons, List.count_cons_of_ne (Ne.symm blank), ih]
  | case3 d cs _ ih =>
      rw [List.count_cons, List.count_cons, ih]
      split
      · rename_i same
        rw [same]
        simp [Ne.symm blank, Ne.symm line]
      · rfl

theorem tally_arbitrary {sign : Char} (blank : sign ≠ ' ') (line : sign ≠ '_') (css : String) :
    tally sign (arbitrary css) = tally sign css := by
  rw [arbitrary, Text.tally_ofList, count_arbitraryChars blank line, tally]

/-! ## Fills -/

theorem evenlySpaced_fades : ∀ {stops stops' : List GradientStop},
    List.Forall₂ GradientStop.Fades stops stops' → evenlySpaced stops' = evenlySpaced stops
  | _, _, .nil | _, _, .cons _ .nil | _, _, .cons _ (.cons _ (.cons _ (.cons _ _))) => rfl
  | _, _, .cons a (.cons b .nil) => by rw [evenlySpaced, evenlySpaced, a.position, b.position]
  | _, _, .cons a (.cons b (.cons c .nil)) => by
      rw [evenlySpaced, evenlySpaced, a.position, b.position, c.position]

/-- The occurrences in the names of classes. -/
def classTally (sign : Char) : List Utility → Nat := total fun u => tally sign u.text

theorem tally_named (sign : Char) (stem word : String) :
    tally sign (Utility.named stem word).text = tally sign (stem ++ "-") + tally sign word := by
  rw [← Text.tally_append]
  rfl

/-- Every stop of an even gradient gets a slash. -/
theorem tally_stopClasses : ∀ {stops stops' : List GradientStop},
    List.Forall₂ GradientStop.Fades stops stops' → evenlySpaced stops = true →
      classTally '/' (stopClasses stops') = classTally '/' (stopClasses stops) + stops.length
  | _, _, .cons a (.cons b .nil), _ => by
      simp only [stopClasses, classTally, total, List.map_cons, List.map_nil, List.sum_cons,
        List.sum_nil, tally_named, tally_color_fades a.color, tally_color_fades b.color,
        List.length_cons, List.length_nil]
      omega
  | _, _, .cons a (.cons b (.cons c .nil)), _ => by
      simp only [stopClasses, classTally, total, List.map_cons, List.map_nil, List.sum_cons,
        List.sum_nil, tally_named, tally_color_fades a.color, tally_color_fades b.color,
        tally_color_fades c.color, List.length_cons, List.length_nil]
      omega

/-- A gradient in words gets slashes when it fades, and one in CSS loses hash signs. -/
theorem exists_tally_gradient (angle : Float) (some : stops ≠ [])
    (each : List.Forall₂ GradientStop.Fades stops stops') : ∃ sign, ∃ more : Int,
      isBlank sign = false ∧ more ≠ 0 ∧ (classTally sign (gradient angle stops') : Int) =
        classTally sign (gradient angle stops) + more := by
  have length := List.length_pos_iff.mpr some
  have even := evenlySpaced_fades each
  unfold gradient
  rw [even]
  split
  · rename_i word _ direction spaced
    refine ⟨'/', stops.length, by decide, by omega, ?_⟩
    have stops := tally_stopClasses each spaced
    simp only [classTally, total] at stops
    simp only [classTally, total, List.map_cons, List.sum_cons, stops]
    omega
  · obtain ⟨first, second⟩ := Design.tally_linearGradient_fades angle each
    refine ⟨'#', -stops.length, by decide, by omega, ?_⟩
    simp only [classTally, total, List.map_cons, List.map_nil, List.sum_cons, List.sum_nil,
      tally_named, Text.tally_append, tally_arbitrary (show '#' ≠ ' ' by decide)
        (show '#' ≠ '_' by decide), first, second]
    omega

/-- Some sign tells whether a fill fades, unless it is an image. -/
theorem exists_shifts_fillClasses (fades : P.Fades Q) : ∃ sign, ∃ more : Int,
    isBlank sign = false ∧ (more = 0 → P.fill.isImage = true) ∧
      ∀ n : Node, Shifts (P.fill.isImage = true) more (classTally sign) (fillClasses n [P])
        (fillClasses n [Q]) := by
  obtain ⟨fill, opacity, mode⟩ := P
  obtain ⟨fill', opacity', mode'⟩ := Q
  obtain ⟨changed, -⟩ := fades
  cases changed with
  | @solid c d color =>
      refine ⟨'/', 1, by decide, by omega, fun n => ⟨fun image => (by cases image), ?_⟩⟩
      simp only [fillClasses, classTally, total, List.map_cons, List.map_nil, List.sum_cons,
        List.sum_nil, tally_named, tally_color_fades color]
      omega
  | linearGradient some each =>
      obtain ⟨sign, more, solid, seen, tally⟩ := exists_tally_gradient _ some each
      exact ⟨sign, more, solid, fun none => absurd none seen,
        fun n => ⟨fun image => (by cases image), tally⟩⟩
  | image => exact ⟨'#', 0, by decide, fun _ => rfl, fun n => .refl _ _ _⟩

/-! ## Classes -/

theorem gradient_ne_nil (angle : Float) (stops : List GradientStop) :
    gradient angle stops ≠ [] := by
  unfold gradient
  split <;> simp

theorem fillClasses_ne_nil (n : Node) (P : Paint) : fillClasses n [P] ≠ [] := by
  simp only [fillClasses]
  split <;> simp [gradient_ne_nil, image]

/-- The classes of the fill of a container are among its classes, whatever they are. -/
theorem exists_classes (container : b.IsContainer) (rounding : Bool) (parent : Option Node)
    (children : List Node) (mode : Design.BlendMode) : ∃ left right, ∀ {P : Paint},
      P.blendMode = mode → classes rounding parent (.mk (b.withFill P) children) =
        left ++ fillClasses (.mk b children) [P] ++ right := by
  let n := Node.mk b children
  refine ⟨placement rounding n ++
      b.layout.mode.flow?.elim [] (flow rounding) ++ size rounding parent n .horizontal ++
      size rounding parent n .vertical,
    (if mode != .normal then [.named "mix-blend" (Css.blendMode mode)] else []) ++
      border rounding n ++ corners rounding n ++ effects rounding n ++ finish n,
    fun {P} own => ?_⟩
  have content : content rounding (.mk (b.withFill P) children) =
      fillClasses (.mk b children) [P] ++
        (if mode != .normal then [.named "mix-blend" (Css.blendMode mode)] else []) ++
          border rounding (.mk b children) := by
    obtain ⟨image, -, line⟩ := container.kind_ne
    have text := (container.withFill P).text
    have kind : (b.withFill P).kind = b.kind := rfl
    have fills : (b.withFill P).style.fills = [P] := rfl
    unfold Tailwind.content
    simp only [Node.box, text, kind, line, image, fills, if_false, Bool.false_eq_true, blend,
      Css.blends, own, List.any_cons, List.any_nil, Bool.or_false]
    rfl
  have layout : (Node.mk (b.withFill P) children).box.layout.mode = b.layout.mode := rfl
  unfold classes
  rw [content, layout]
  simp only [List.append_assoc]
  cases b.layout.mode with
  | flow f => rfl
  | absolute => rfl

/-- The attributes of a node depend on its box, on the layout of its parent and on whether a child is
placed absolutely. -/
theorem local_attributes (s : Settings) : Local (attributes s) := by
  intro parent parent' b children children' parents placed
  have placement : placement s.roundTailwindValues (.mk b children) =
      placement s.roundTailwindValues (.mk b children') := by
    unfold Tailwind.placement
    rw [placed]
    rfl
  have size (axis : Design.Direction) : size s.roundTailwindValues parent (.mk b children) axis =
      size s.roundTailwindValues parent' (.mk b children') axis := by
    unfold Tailwind.size
    rw [Css.flowAround?_congr parents]
    rfl
  unfold attributes classes
  rw [placement, size, size]
  rfl

/-! ## Code -/

section

variable {same : Prop} {more : Int} {sign : Char}

/-- The classes of the fill are in the attribute of the node. -/
theorem fillShift_attributes (s : Settings) (solid : isBlank sign = false)
    (mode : Q.blendMode = P.blendMode) (fill : ∀ n : Node, Shifts same more (classTally sign)
      (fillClasses n [P]) (fillClasses n [Q])) (dialect : Markup.Dialect) :
    FillShift same more (attributesTally sign dialect) (attributes s) P Q := by
  intro parent b children container
  obtain ⟨left, right, listed⟩ :=
    exists_classes container s.roundTailwindValues parent children P.blendMode
  have list {R : Paint} (mode : R.blendMode = P.blendMode) :
      attributes s parent (.mk (b.withFill R) children) =
        [.classes (names (left ++ fillClasses (.mk b children) [R] ++ right))] := by
    obtain ⟨u, member⟩ := List.exists_mem_of_ne_nil _ (fillClasses_ne_nil (.mk b children) R)
    have present : u ∈ classes s.roundTailwindValues parent (.mk (b.withFill R) children) := by
      rw [listed mode]
      exact List.mem_append_left _ (List.mem_append_right _ member)
    rw [attributes_of_mem present, listed mode]
  rw [list rfl, list mode]
  have blank : tally sign " " = 0 := Text.tally_of_blank solid (by decide)
  have texts : Adds (classTally sign) (total (tally sign)) names :=
    adds_of_eq fun us => congrArg List.sum List.map_map
  have own : Adds (classTally sign) (fun a => tally sign (a.text dialect)) fun us =>
      Markup.Attribute.classes (names us) := by
    refine Adds.measured ?_
    cases dialect with
    | html =>
        exact (Text.adds_enclose "class=\"" "\"").comp ((Text.adds_intercalate blank).comp texts)
    | jsx =>
        exact (Text.adds_enclose "className=\"" "\"").comp
          ((Text.adds_intercalate blank).comp texts)
  exact (fill (.mk b children)).around
    ((adds_inList [] []).comp (own.comp (adds_between left right)))

variable {forest forest' : List Node}

/-- What the target makes of a design changes when an opaque fill fades, unless it is an image. -/
theorem artifacts_fades (fades : P.Fades Q) (s : Settings)
    (changed : InOnePlace (Node.Exchanged P Q) forest forest') :
    artifacts s forest = artifacts s forest' ↔ P.fill.isImage = true := by
  obtain ⟨sign, more, solid, seen, fill⟩ := exists_shifts_fillClasses fades
  have code : Shifts (P.fill.isImage = true) more (tally sign) (code s forest) (code s forest') :=
    Markup.shifts_document solid (local_attributes s)
      (fillShift_attributes s solid fades.blendMode fill (.ofSettings s)) changed
  unfold artifacts
  simpa using code.eq_iff seen

/-- Nothing more and nothing less is missing after a fill is exchanged. -/
theorem warnings_exchanged (changed : InOnePlace (Node.Exchanged P Q) forest forest') :
    warnings forest = warnings forest' := by
  rw [warnings, warnings, omissions_eq_css]
  exact Html.warnings_exchanged changed

end

end Tailwind

end Handoff
