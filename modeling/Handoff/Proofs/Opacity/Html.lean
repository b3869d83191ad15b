import Handoff.Proofs.Opacity.Fading
import Handoff.Proofs.Opacity.Markup

/-!
A fading fill in HTML.

An opaque color is written with a hash sign and a color at half its opacity with none, so the hash
signs of the background tell the two apart (`Css.exists_shifts_layer`).  The background is one of
the declarations of the node, in the same place whatever it is (`Css.exists_declarations`), and the
declarations are in the code or in the style sheet.

The main statement is `Html.artifacts_fades`.
-/

namespace Handoff

open Design (Box Node Paint Fill Direction layoutOf)
open Markup (Local FillShift readings)
open Text (tally)

/-! ## Colors -/

namespace Color

/-- There is one hash sign in the digits of a color. -/
theorem tally_hex (c : Color) : tally '#' c.hex = 1 := by
  have pair (channel : Float32) : (Text.hexPair (byte channel)).count '#' = 0 := by
    refine List.count_eq_zero.mpr fun member => ?_
    cases Text.within_hexPair (byte_lt channel) '#' member
  rw [hex, Text.tally_ofList, List.cons_append, List.cons_append, List.count_cons,
    List.count_append, List.count_append]
  simp only [bytes, pair]
  rfl

/-- There is no hash sign in a color with an alpha channel. -/
theorem tally_rgba {c : Color} (half : c.isOpaque = false) : tally '#' c.css = 0 := by
  have channel (n : Nat) : tally '#' (toString n) = 0 :=
    (Text.within_repr n).tally_eq_zero (by decide)
  have alpha (x : Float32) : tally '#' (Decimal.singleNumeral x) = 0 :=
    (Decimal.within_singleNumeral x).tally_eq_zero (by decide)
  have signs : tally '#' "rgba(" = 0 ∧ tally '#' ", " = 0 ∧ tally '#' ")" = 0 := by decide
  rw [css, if_neg (by rw [half]; exact Bool.false_ne_true)]
  simp only [Text.tally_append, channel, alpha, signs]

end Color

namespace Design

variable {c d : ColorRef} {stops stops' : List GradientStop}

theorem ColorRef.Fades.tally_css (fades : c.Fades d) :
    tally '#' c.color.css = 1 ∧ tally '#' d.color.css = 0 := by
  have half : d.color.a = 0.5 := by rw [fades.half]
  refine ⟨?_, Color.tally_rgba (Color.not_isOpaque_of_half half)⟩
  rw [Color.css, if_pos (Color.isOpaque_of_full fades.full), Color.tally_hex]

/-- There are as many hash signs in a gradient as in its colors. -/
theorem tally_linearGradient (angle : Float) (stops : List GradientStop) :
    tally '#' (Css.linearGradient angle stops) =
      (stops.map fun s => tally '#' s.color.color.css).sum := by
  have number (x : Float) : tally '#' (Decimal.plain x) = 0 :=
    (Decimal.within_plain x).tally_eq_zero (by decide)
  have signs : tally '#' "linear-gradient(" = 0 ∧ tally '#' "deg, " = 0 ∧ tally '#' ", " = 0 ∧
      tally '#' ")" = 0 ∧ tally '#' " " = 0 ∧ tally '#' "%" = 0 := by decide +kernel
  have each (s : GradientStop) : tally '#' (Css.stop s) = tally '#' s.color.color.css := by
    simp only [Css.stop, Text.tally_append, number, signs]
    rfl
  unfold Css.linearGradient
  simp only [Text.tally_append, number, signs, Text.tally_intercalate signs.2.2.1, List.map_map,
    Function.comp_def, each]
  omega

theorem tally_linearGradient_fades (angle : Float)
    (each : List.Forall₂ GradientStop.Fades stops stops') :
    tally '#' (Css.linearGradient angle stops) = stops.length ∧
      tally '#' (Css.linearGradient angle stops') = 0 := by
  rw [tally_linearGradient, tally_linearGradient]
  induction each with
  | nil => exact ⟨rfl, rfl⟩
  | cons fades _ ih =>
      obtain ⟨first, second⟩ := ih
      simp only [List.map_cons, List.sum_cons, first, second, fades.color.tally_css,
        List.length_cons]
      exact ⟨Nat.add_comm _ _, trivial⟩

end Design

/-! ## Declarations -/

namespace Css

variable {P Q : Paint} {b : Box} {property : String}

/-- A background tells by its hash signs whether it fades, unless it is an image. -/
theorem exists_shifts_layer (fades : P.Fades Q) : ∃ more : Int,
    (more = 0 → P.fill.isImage = true) ∧
      ∀ n : Node, Shifts (P.fill.isImage = true) more (tally '#') (layer n true P)
        (layer n true Q) := by
  obtain ⟨fill, opacity, mode⟩ := P
  obtain ⟨fill', opacity', mode'⟩ := Q
  obtain ⟨changed, -⟩ := fades
  cases changed with
  | @solid c d color =>
      obtain ⟨first, second⟩ := color.tally_css
      refine ⟨-1, by omega, fun n => ⟨fun image => (by cases image), ?_⟩⟩
      simp only [layer, if_true, first, second]
      rfl
  | @linearGradient angle stops stops' some each =>
      obtain ⟨first, second⟩ := Design.tally_linearGradient_fades angle each
      have length := List.length_pos_iff.mpr some
      refine ⟨-stops.length, by omega, fun n => ⟨fun image => (by cases image), ?_⟩⟩
      simp only [layer, first, second]
      omega
  | image => exact ⟨0, fun _ => rfl, fun n => .refl _ _ _⟩

theorem exists_set (ds : List Declaration) (property : String) : ∃ left right, ∀ v,
    set ds ⟨property, v⟩ = left ++ ⟨property, v⟩ :: right := by
  induction ds with
  | nil => exact ⟨[], [], fun v => rfl⟩
  | cons e rest ih =>
      obtain ⟨left, right, own⟩ := ih
      by_cases same : e.property = property
      · exact ⟨[], rest, fun v => by
          rw [set, if_pos same]
          rfl⟩
      · exact ⟨e :: left, right, fun v => by
          rw [set, if_neg same, own]
          rfl⟩

/-- A declaration stays in its place, whatever its value is, when another property is set. -/
theorem exists_set_other {e : Declaration} (other : e.property ≠ property)
    (left right : List Declaration) : ∃ left' right', ∀ v,
      set (left ++ ⟨property, v⟩ :: right) e = left' ++ ⟨property, v⟩ :: right' := by
  induction left with
  | nil =>
      exact ⟨[], set right e, fun v => by
        rw [List.nil_append, set, if_neg (Ne.symm other)]
        rfl⟩
  | cons first rest ih =>
      obtain ⟨left', right', own⟩ := ih
      by_cases same : first.property = e.property
      · exact ⟨e :: rest, right, fun v => by
          rw [List.cons_append, set, if_pos same]
          rfl⟩
      · exact ⟨first :: left', right', fun v => by
          rw [List.cons_append, set, if_neg same, own]
          rfl⟩

/-- The last declaration of a property has its place, whatever its value is. -/
theorem exists_settle (before : List Declaration) {after : List Declaration}
    (last : ∀ e ∈ after, e.property ≠ property) : ∃ left right, ∀ v,
      settle (before ++ ⟨property, v⟩ :: after) = left ++ ⟨property, v⟩ :: right := by
  have later : ∀ left right, ∃ left' right', ∀ v,
      after.foldl set (left ++ ⟨property, v⟩ :: right) = left' ++ ⟨property, v⟩ :: right' := by
    induction after with
    | nil => exact fun left right => ⟨left, right, fun _ => rfl⟩
    | cons e rest ih =>
        intro left right
        obtain ⟨left', right', own⟩ := exists_set_other (last e List.mem_cons_self) left right
        obtain ⟨left'', right'', others⟩ :=
          ih (fun f member => last f (List.mem_cons_of_mem _ member)) left' right'
        exact ⟨left'', right'', fun v => by rw [List.foldl_cons, own, others]⟩
  obtain ⟨left, right, own⟩ := exists_set (before.foldl set []) property
  obtain ⟨left', right', others⟩ := later left right
  exact ⟨left', right', fun v => by
    rw [settle, List.foldl_append, List.foldl_cons, own, others]⟩

/-- The background of a container is one of its declarations. -/
theorem exists_declarations (container : b.IsContainer) (parent : Option Node)
    (children : List Node) (mode : Design.BlendMode) : ∃ left right, ∀ {P : Paint},
      P.blendMode = mode → declarations parent (.mk (b.withFill P) children) =
        left ++ ⟨"background", layer (.mk b children) true P⟩ :: right := by
  have rest : ∀ d ∈ (if mode != .normal then [⟨"mix-blend-mode", blendMode mode⟩] else []) ++
      border (.mk b children) ++ corners (.mk b children) ++ effects (.mk b children) ++
        finish (.mk b children), d.property ≠ "background" := by
    have blend : Declares ["mix-blend-mode"]
        (if mode != .normal then [⟨"mix-blend-mode", blendMode mode⟩] else []) := by
      simp [within_blendMode]
    simp only [List.forall_mem_append]
    exact ⟨⟨⟨⟨blend.property_ne (by decide), (declares_border _).property_ne (by decide)⟩,
      (declares_corners _).property_ne (by decide)⟩, (declares_effects _).property_ne (by decide)⟩,
      (declares_finish _).property_ne (by decide)⟩
  obtain ⟨left, right, settled⟩ := exists_settle (placement (.mk b children) ++
    flowOf (.mk b children) ++ size parent (.mk b children) .horizontal ++
      size parent (.mk b children) .vertical) rest
  refine ⟨left, right, fun {P} own => ?_⟩
  have content : content (.mk (b.withFill P) children) =
      ⟨"background", layer (.mk b children) true P⟩ ::
        ((if mode != .normal then [⟨"mix-blend-mode", blendMode mode⟩] else []) ++
          border (.mk b children)) := by
    obtain ⟨image, -, line⟩ := container.kind_ne
    have value : backgroundValue (.mk (b.withFill P) children) [P] =
        layer (.mk b children) true P := rfl
    have text := (container.withFill P).text
    have kind : (b.withFill P).kind = b.kind := rfl
    have fills : (b.withFill P).style.fills = [P] := rfl
    unfold Css.content
    simp only [Node.box, text, kind, line, image, fills, if_false, Bool.false_eq_true, background,
      List.isEmpty_cons, value, blends, own, List.any_cons, List.any_nil, Bool.or_false]
    rfl
  rw [← settled, declarations_eq, content]
  simp only [List.append_assoc, List.cons_append]
  rfl

section

variable {parent parent' : Option Node} {children children' : List Node}

theorem flowAround?_congr (parents : layoutOf parent = layoutOf parent') :
    flowAround? parent (.mk b children) = flowAround? parent' (.mk b children') := by
  unfold flowAround?
  rw [Design.flow?_layoutOf, Design.flow?_layoutOf, parents]
  rfl

theorem size_congr (parents : layoutOf parent = layoutOf parent') (axis : Direction) :
    size parent (.mk b children) axis = size parent' (.mk b children') axis := by
  unfold size
  rw [flowAround?_congr parents]
  rfl

/-- The declarations of a node depend on its box, on the layout of its parent and on whether a child
is placed absolutely. -/
theorem local_declarations : Local declarations := by
  intro parent parent' b children children' parents placed
  have placement : placement (.mk b children) = placement (.mk b children') := by
    unfold Css.placement
    rw [placed]
    rfl
  rw [declarations_eq, declarations_eq, placement, size_congr parents, size_congr parents]
  rfl

/-- Nothing that is left out of a container has to do with its fill. -/
theorem omissions_withFill (container : b.IsContainer) (P : Paint) (children : List Node) :
    omissions (.mk (b.withFill P) children) = omissions (.mk b children) := by
  have text := (container.withFill P).text
  unfold omissions contentOmissions
  simp only [Node.box, text, container.text]
  rfl

end

end Css

/-! ## Code -/

namespace Html

open Markup (attributesTally)

variable {P Q : Paint} {forest forest' : List Node}

/-- If a whole has the hash signs of the texts in it, and the text of a declaration those of its
value, then the whole has the hash signs of the value, and more that do not depend on it. -/
theorem adds_declarations {β : Type} {measure : β → Nat} (text : Css.Declaration → String)
    {property : String} (own : Adds (tally '#') (tally '#') fun v => text ⟨property, v⟩)
    (left right : List Css.Declaration) {whole : List String → β}
    (joined : Adds (total (tally '#')) measure whole) : Adds (tally '#') measure fun v =>
      whole ((left ++ ⟨property, v⟩ :: right).map text) := by
  have list := joined.comp ((adds_inList (left.map text) (right.map text)).comp own)
  simpa only [List.map_append, List.map_cons] using list

theorem adds_declaration (property : String) :
    Adds (tally '#') (tally '#') fun v => Css.Declaration.text ⟨property, v⟩ := by
  have text := Text.adds_enclose (c := '#') (property ++ ": ") ""
  simpa [Css.Declaration.text] using text

/-- A property of a style object has the hash signs of its value: none of them is escaped. -/
theorem adds_scriptProperty (property : String) :
    Adds (tally '#') (tally '#') fun v => Markup.scriptProperty ⟨property, v⟩ := by
  have script : Adds (tally '#') (tally '#') Text.styleString := by
    refine adds_of_eq (Text.tally_escapeWith fun d => ?_)
    unfold Text.quoteEscape
    split <;> rfl
  exact (Text.adds_enclose (Css.scriptName property ++ ": \"") "\"").comp script

/-- A style has the hash signs of a declaration in it. -/
theorem adds_style (dialect : Markup.Dialect) (left right : List Css.Declaration)
    (property : String) : Adds (tally '#') (fun a => tally '#' (a.text dialect)) fun v =>
      Markup.Attribute.style (left ++ ⟨property, v⟩ :: right) := by
  have signs : tally '#' "; " = 0 ∧ tally '#' ", " = 0 := by decide
  refine Adds.measured ?_
  cases dialect with
  | html =>
      have whole := (Text.adds_enclose "style=\"" "\"").comp (Text.adds_intercalate signs.1)
      exact adds_declarations _ (adds_declaration property) left right whole
  | jsx =>
      have whole := (Text.adds_enclose "style=\x7b\x7b" "\x7d\x7d").comp
        (Text.adds_intercalate signs.2)
      exact adds_declarations _ (adds_scriptProperty property) left right whole

/-- A rule has the hash signs of a declaration in it. -/
theorem adds_rule (name : String) (left right : List Css.Declaration) (property : String) :
    Adds (tally '#') (fun rule => tally '#' rule.text) fun v =>
      Css.Rule.mk name (left ++ ⟨property, v⟩ :: right) := by
  have line := (Text.adds_enclose (c := '#') "  " ";").comp (adds_declaration property)
  have feed : tally '#' "\n" = 0 := by decide
  have whole := (Text.adds_enclose ("." ++ name ++ " \x7b\n") "\n\x7d").comp
    (Text.adds_intercalate feed)
  refine Adds.measured ?_
  exact adds_declarations (fun d => "  " ++ d.text ++ ";") line left right whole

section

variable {same : Prop} {more : Int}

/-- Two paints have one blend mode, and the background of the second has `more` more hash signs. -/
structure Differs (same : Prop) (more : Int) (P Q : Paint) : Prop where
  blendMode : Q.blendMode = P.blendMode
  layer (n : Node) : Shifts same more (tally '#') (Css.layer n true P) (Css.layer n true Q)

variable {parent : Option Node} {b : Box}

theorem layerAttribute_withFill (s : Settings) (b : Box) (P : Paint) (children : List Node) :
    layerAttribute s (.mk (b.withFill P) children) = layerAttribute s (.mk b children) :=
  rfl

theorem className_withFill (b : Box) (P : Paint) (children : List Node) :
    className (.mk (b.withFill P) children) = className (.mk b children) :=
  rfl

/-- Where styles are on the elements, so is the background. -/
theorem fillShift_attributes {s : Settings} (inline : s.inlineStyle = true)
    (differs : Differs same more P Q) (dialect : Markup.Dialect) :
    FillShift same more (attributesTally '#' dialect) (attributes s) P Q := by
  intro parent b children container
  obtain ⟨left, right, own⟩ := Css.exists_declarations container parent children P.blendMode
  have member (v : String) : (⟨"background", v⟩ : Css.Declaration) ∈
      left ++ ⟨"background", v⟩ :: right := List.mem_append_right _ List.mem_cons_self
  have style {R : Paint} (mode : R.blendMode = P.blendMode) :
      attributes s parent (.mk (b.withFill R) children) = layerAttribute s (.mk b children) ++
        [.style (left ++ ⟨"background", Css.layer (.mk b children) true R⟩ :: right)] := by
    have own := own mode
    rw [attributes, styleAttribute_of_mem (own ▸ member _), own, inline, layerAttribute_withFill]
    rfl
  rw [style rfl, style differs.blendMode]
  exact (differs.layer (.mk b children)).around
    ((adds_inList _ []).comp (adds_style dialect left right "background"))

/-- Where styles are in classes, the elements do not differ. -/
theorem fillShift_classes {s : Settings} (inline : s.inlineStyle = false)
    (mode : Q.blendMode = P.blendMode) (dialect : Markup.Dialect) :
    FillShift True 0 (attributesTally '#' dialect) (attributes s) P Q := by
  intro parent b children container
  obtain ⟨left, right, own⟩ := Css.exists_declarations container parent children P.blendMode
  have member (v : String) : (⟨"background", v⟩ : Css.Declaration) ∈
      left ++ ⟨"background", v⟩ :: right := List.mem_append_right _ List.mem_cons_self
  have style {R : Paint} (mode : R.blendMode = P.blendMode) :
      attributes s parent (.mk (b.withFill R) children) =
        layerAttribute s (.mk b children) ++ [.classes [className (.mk b children)]] := by
    rw [attributes, styleAttribute_of_mem (own mode ▸ member _), inline, layerAttribute_withFill,
      className_withFill]
    rfl
  rw [style rfl, style mode]
  exact .refl _ _ _

/-- Where styles are in classes, the background is in a rule. -/
theorem fillShift_rule (differs : Differs same more P Q) :
    FillShift same more (total fun rule : Css.Rule => tally '#' rule.text)
      (fun parent n => (rule? parent n).toList) P Q := by
  intro parent b children container
  obtain ⟨left, right, own⟩ := Css.exists_declarations container parent children P.blendMode
  have member (v : String) : (⟨"background", v⟩ : Css.Declaration) ∈
      left ++ ⟨"background", v⟩ :: right := List.mem_append_right _ List.mem_cons_self
  have rule {R : Paint} (mode : R.blendMode = P.blendMode) :
      (rule? parent (.mk (b.withFill R) children)).toList = [⟨className (.mk b children),
        left ++ ⟨"background", Css.layer (.mk b children) true R⟩ :: right⟩] := by
    have own := own mode
    rw [rule?_of_mem (own ▸ member _), own, className_withFill]
    rfl
  simp only [rule rfl, rule differs.blendMode]
  exact (differs.layer (.mk b children)).around
    ((adds_inList [] []).comp (adds_rule _ left right "background"))

theorem local_attributes (s : Settings) : Local (attributes s) := by
  intro parent parent' b children children' parents placed
  unfold attributes styleAttribute
  rw [Css.local_declarations parents placed]
  rfl

theorem local_rule : Local fun parent n => (rule? parent n).toList := by
  intro parent parent' b children children' parents placed
  simp only [rule?, Css.local_declarations parents placed]
  rfl

variable {forest forest' : List Node}

/-- A style sheet differs by the background of one of the nodes. -/
theorem shifts_styleSheet (differs : Differs same more P Q)
    (changed : InOnePlace (Node.Exchanged P Q) forest forest') : Shifts same more (tally '#')
      (Css.styleSheet (rules forest)) (Css.styleSheet (rules forest')) := by
  have read (forest : List Node) :
      rules forest = readings (fun parent n => (rule? parent n).toList) none forest := by
    unfold rules readings
    rw [List.filterMap_eq_flatMap_toList]
    rfl
  have feed : tally '#' "\n\n" = 0 := by decide
  have texts : Adds (total fun rule : Css.Rule => tally '#' rule.text) (total (tally '#'))
      fun rules : List Css.Rule => rules.map Css.Rule.text :=
    adds_of_eq fun rules => congrArg List.sum List.map_map
  obtain ⟨before, n, m, after, rfl, rfl, changed⟩ := changed
  rw [read, read]
  exact (Markup.shifts_readings local_rule (fillShift_rule differs) changed before after rfl).around
    ((Text.adds_intercalate feed).comp texts)

/-- The code differs by the background of one of the nodes, if it has styles in it. -/
theorem shifts_code {s : Settings} (differs : Differs same more P Q)
    (changed : InOnePlace (Node.Exchanged P Q) forest forest') :
    if s.inlineStyle then Shifts same more (tally '#') (code s forest) (code s forest')
    else code s forest = code s forest' := by
  have solid : Text.isBlank '#' = false := by decide
  split
  · rename_i inline
    exact Markup.shifts_document solid (local_attributes s)
      (fillShift_attributes inline differs (.ofSettings s)) changed
  · rename_i classes
    have own := fillShift_classes (Bool.eq_false_iff.mpr classes) differs.blendMode (.ofSettings s)
    exact (Markup.shifts_document solid (local_attributes s) own changed).eq trivial

/-- What the target makes of a design changes when an opaque fill fades, unless it is an image. -/
theorem artifacts_fades (fades : P.Fades Q) (s : Settings)
    (changed : InOnePlace (Node.Exchanged P Q) forest forest') :
    artifacts s forest = artifacts s forest' ↔ P.fill.isImage = true := by
  obtain ⟨more, seen, layers⟩ := Css.exists_shifts_layer fades
  have differs : Differs (P.fill.isImage = true) more P Q := ⟨fades.blendMode, layers⟩
  have code := shifts_code (s := s) differs changed
  have sheet := (shifts_styleSheet differs changed).eq_iff seen
  unfold artifacts
  cases inline : s.inlineStyle with
  | true =>
      rw [inline, if_pos rfl] at code
      simpa using code.eq_iff seen
  | false =>
      rw [inline, if_neg Bool.false_ne_true] at code
      simpa [code] using sheet

/-- Nothing more and nothing less is missing after a fill is exchanged. -/
theorem warnings_exchanged (changed : InOnePlace (Node.Exchanged P Q) forest forest') :
    warnings forest = warnings forest' := by
  obtain ⟨before, n, m, after, rfl, rfl, changed⟩ := changed
  have own : FillShift True 0 (total fun _ : Warning => 0) (fun (_ : Option Node) n =>
      Warning.about n.box.id (n.box.unsupported ++ Css.omissions n)) P Q := by
    intro parent b children container
    simp only [Css.omissions_withFill container]
    exact .refl _ _ _
  exact (Markup.shifts_readings (fun _ _ => rfl) own changed before after rfl).eq trivial

end

end Html

end Handoff
