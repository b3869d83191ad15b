import Handoff.Proofs.Css.Properties
import Handoff.Proofs.Tailwind.Layout
import Handoff.Proofs.UsedColors

/-!
Characters of classes.

A class is *plain* if it is not empty and spelled with letters, digits, the signs of values and
brackets, so neither white space nor a quote is in it.  All classes of a node are plain but for the
one with the family of its font (`classes_text`), as long as its colors are (`Called`).
-/

namespace Handoff.Tailwind

open Design (Node ColorRef)
open Text (Within isWordChar isDenseChar isValueChar within_append)

/-! ## Plain classes -/

/-- Whether a character may stand in a plain class. -/
def isClassChar (c : Char) : Bool := isDenseChar c || "_[]".toList.contains c

theorem within_dense {s : String} (dense : Within isDenseChar s) : Within isClassChar s :=
  dense.mono fun c own => by rw [isClassChar, own, Bool.true_or]

theorem within_word {s : String} (word : Within isWordChar s) : Within isClassChar s :=
  within_dense word.dense

theorem within_plain (v : Float) : Within isClassChar (Decimal.plain v) :=
  within_word (Decimal.within_plain v)

theorem within_px (v : Float) : Within isClassChar (Css.px v) :=
  within_append.mpr ⟨within_plain v, by decide⟩

/-- A class that is not empty and has only the characters of classes in it. -/
def IsPlain (u : Utility) : Prop := u.text ≠ "" ∧ Within isClassChar u.text

instance (u : Utility) : Decidable (IsPlain u) := inferInstanceAs (Decidable (_ ∧ _))

/-- All classes are plain. -/
def Plain (us : List Utility) : Prop := ∀ u ∈ us, IsPlain u

section

variable {us first later : List Utility} {u : Utility} {stem word : String}

@[simp] theorem plain_nil : Plain [] :=
  List.forall_mem_nil _

@[simp] theorem plain_cons : Plain (u :: us) ↔ IsPlain u ∧ Plain us :=
  List.forall_mem_cons

@[simp] theorem plain_append : Plain (first ++ later) ↔ Plain first ∧ Plain later :=
  List.forall_mem_append

@[simp] theorem plain_ite {c : Prop} [Decidable c] :
    Plain (if c then first else later) ↔ (c → Plain first) ∧ (¬c → Plain later) := by
  by_cases h : c <;> simp [h]

theorem text_named_ne_empty (stem word : String) : (Utility.named stem word).text ≠ "" := by
  intro empty
  have chars := congrArg String.toList empty
  simp [text_named] at chars

theorem isPlain_named (stemmed : Within isClassChar stem) (spelled : Within isClassChar word) :
    IsPlain (.named stem word) := by
  refine ⟨text_named_ne_empty stem word, ?_⟩
  rw [text_named]
  exact within_append.mpr ⟨within_append.mpr ⟨stemmed, by decide⟩, spelled⟩

theorem within_bracketed (spelled : Within isClassChar word) :
    Within isClassChar ("[" ++ word ++ "]") :=
  within_append.mpr ⟨within_append.mpr ⟨by decide, spelled⟩, by decide⟩

/-- A length on a scale is plain if the words of the scale are. -/
theorem isPlain_scaled {scale : List Step} (present : stem ≠ "")
    (stemmed : Within isClassChar stem)
    (steps : ∀ suffix ∈ scale.map Step.suffix, Within isClassChar suffix) (rounding : Bool)
    (v : Float) : IsPlain ⟨stem, scaled rounding scale v⟩ := by
  rcases scaled_cases rounding scale v with ⟨step, member, chosen, -⟩ | chosen
  · rw [chosen, Step.toSuffix]
    split
    · exact ⟨present, stemmed⟩
    · exact isPlain_named stemmed (steps _ (List.mem_map_of_mem member))
  · rw [chosen, IsPlain, text_length, ← IsPlain]
    refine isPlain_named stemmed (within_append.mpr ⟨within_append.mpr ⟨by decide, ?_⟩, by decide⟩)
    exact within_plain v

theorem isPlain_spacing (present : stem ≠ "") (stemmed : Within isClassChar stem)
    (rounding : Bool) (v : Float) : IsPlain (spacing rounding stem v) :=
  isPlain_scaled present stemmed (by decide) rounding v

theorem plain_positive (present : stem ≠ "") (stemmed : Within isClassChar stem)
    (rounding : Bool) (v : Float) : Plain (positive rounding stem v) := by
  unfold positive
  simp [isPlain_spacing present stemmed]

end

/-! ## CSS in classes -/

theorem within_arbitrary {css : String} (value : Within isValueChar css) :
    Within isClassChar (arbitrary css) := by
  have each : ∀ cs : List Char, (∀ c ∈ cs, isValueChar c = true) →
      ∀ c ∈ arbitraryChars cs, isClassChar c = true := by
    intro cs
    fun_induction arbitraryChars cs with
    | case1 => exact fun _ => List.forall_mem_nil _
    | case2 cs ih =>
        intro spelled
        exact List.forall_mem_cons.mpr ⟨by decide,
          ih fun c member => spelled c (List.mem_cons_of_mem _ (List.mem_cons_of_mem _ member))⟩
    | case3 c cs _ ih =>
        intro spelled
        obtain ⟨own, others⟩ := List.forall_mem_cons.mp spelled
        refine List.forall_mem_cons.mpr ⟨?_, ih others⟩
        split
        · decide
        · rename_i other
          rw [isClassChar, ((Text.isValueChar_iff c).mp own).resolve_left other, Bool.true_or]
  exact Text.within_ofList.mpr (each _ value)

theorem within_percent (v : Float) : Within isClassChar (percent v) := by
  unfold percent
  dsimp only
  split
  · exact within_word (Text.within_intRepr _)
  · exact within_bracketed (within_plain v)

/-! ## Colors -/

/-- If a color is called by a name, that is the name of a class. -/
def Called (c : ColorRef) : Prop := ∀ m, c.palette = some m → Within isClassChar m.name

theorem Called.within_color {c : ColorRef} (called : Called c) : Within isClassChar (color c) := by
  have shaded {name : String} (spelled : Within isClassChar name) :
      Within isClassChar (if c.color.isOpaque then name
        else name ++ "/" ++ percent (Decimal.widen c.color.a)) := by
    split
    · exact spelled
    · exact within_append.mpr ⟨within_append.mpr ⟨spelled, by decide⟩, within_percent _⟩
  unfold color
  cases palette : c.palette with
  | some p => exact shaded (called p palette)
  | none => exact shaded (within_bracketed (within_dense c.color.dense_hex))

theorem Called.isPlain_named {c : ColorRef} (called : Called c) {stem : String}
    (stemmed : Within isClassChar stem) : IsPlain (.named stem (color c)) :=
  Tailwind.isPlain_named stemmed called.within_color

theorem plain_gradient (angle : Float) {stops : List Design.GradientStop}
    (called : ∀ s ∈ stops, Called s.color) : Plain (gradient angle stops) := by
  have colors : Plain (stopClasses stops) := by
    unfold stopClasses
    split
    · simp only [List.forall_mem_cons] at called
      simp +decide [Called.isPlain_named, called]
    · simp only [List.forall_mem_cons] at called
      simp +decide [Called.isPlain_named, called]
    · exact plain_nil
  have words : ∀ word ∈ directions, Within isClassChar word := by decide
  unfold gradient
  split
  · rename_i direction found _
    refine plain_cons.mpr ⟨isPlain_named (by decide) (words _ ?_), colors⟩
    unfold direction? at found
    dsimp only at found
    split at found
    · cases found
    · exact List.mem_of_getElem? found
  · refine plain_cons.mpr ⟨isPlain_named (by decide) (within_bracketed ?_), plain_nil⟩
    exact within_arbitrary (Css.within_linearGradient angle stops)

/-- Every color of a fill is called by a name for classes, if by any. -/
def FillCalled (f : Design.Fill) : Prop := ∀ c ∈ f.colorRefs, Called c

theorem FillCalled.solid {c : ColorRef} (called : FillCalled (.solid c)) : Called c :=
  called c (List.mem_singleton_self c)

theorem FillCalled.plain_gradient {angle : Float} {stops : List Design.GradientStop}
    (called : FillCalled (.linearGradient angle stops)) : Plain (gradient angle stops) :=
  Tailwind.plain_gradient angle fun _ member => called _ (List.mem_map_of_mem member)

/-! ## Aspects -/

section

variable (rounding : Bool) (parent : Option Node) (n : Node)

theorem plain_placement : Plain (placement rounding n) := by
  unfold placement
  split
  · simp +decide [isPlain_spacing]
  · simp +decide

theorem plain_flow (f : Design.Flow) : Plain (flow rounding f) := by
  have padded : Plain (padding rounding f.padding) := by
    unfold padding
    repeat' split
    all_goals simp +decide [isPlain_spacing, plain_positive]
  have justified : IsPlain (.named "justify" (justify f.distribution)) := by
    cases f.distribution <;> decide
  have aligned : IsPlain (.named "items" (items f.alignment)) := by
    cases f.alignment <;> decide
  simp +decide [flow, padded, justified, aligned, plain_positive]

theorem plain_size (axis : Design.Direction) : Plain (size rounding parent n axis) := by
  have stem : sizeStem axis ≠ "" ∧ Within isClassChar (sizeStem axis) := by
    cases axis <;> decide
  have full : IsPlain (.named (sizeStem axis) "full") := isPlain_named stem.2 (by decide)
  unfold size
  split
  · simp +decide [isPlain_spacing stem.1 stem.2]
  · exact plain_nil
  · split
    · simp [full]
    · simp +decide

theorem plain_textPaint {fills : List Design.Paint} (called : ∀ p ∈ fills, FillCalled p.fill) :
    Plain (textPaint fills) := by
  have top : ∀ f, fills.getLast?.map Design.Paint.fill = some f → FillCalled f := by
    intro f last
    obtain ⟨p, member, rfl⟩ := Option.map_eq_some_iff.mp last
    exact called p (List.mem_of_getLast? member)
  unfold textPaint
  split
  · rename_i c last
    exact plain_cons.mpr ⟨(top _ last).solid.isPlain_named (by decide), plain_nil⟩
  · rename_i angle stops last
    simp +decide [(top _ last).plain_gradient]
  all_goals exact plain_nil

/-- The classes of a typography but for the family. -/
def letters (rounding : Bool) (t : Design.Typography) : List Utility :=
  (typography rounding t).tail

theorem typography_eq_cons (t : Design.Typography) :
    typography rounding t = .named "font" (family t.family) :: letters rounding t :=
  rfl

theorem plain_letters (t : Design.Typography) : Plain (letters rounding t) := by
  have size : IsPlain ⟨"text", scaled rounding fontSizeScale t.size⟩ :=
    isPlain_scaled (by decide) (by decide) (by decide) rounding t.size
  have weighted : IsPlain (.named "font" (weight t.weight)) := by
    refine isPlain_named (by decide) ?_
    unfold weight
    split
    · unfold Design.weightName
      repeat' split
      all_goals decide
    · exact within_bracketed (within_word (Text.within_repr t.weight))
  have height : Plain (t.lineHeight.toList.map fun h => .named "leading" (leading h)) := by
    have one : ∀ h, IsPlain (.named "leading" (leading h)) := by
      intro h
      refine isPlain_named (by decide) ?_
      unfold leading
      dsimp only
      split
      · exact within_word (Text.within_repr _)
      · exact within_bracketed (within_px h)
    cases t.lineHeight <;> simp [one]
  have spaced : IsPlain (.named "tracking" ("[" ++ Css.px t.letterSpacing ++ "]")) :=
    isPlain_named (by decide) (within_bracketed (within_px _))
  have aligned : Plain (textAlign t.align) := by
    cases t.align <;> simp +decide [textAlign]
  have cased : Plain (textCase t.textCase) := by
    cases t.textCase <;> simp +decide [textCase]
  have decorated : Plain (decoration t.decoration) := by
    cases t.decoration <;> simp +decide [decoration]
  simp +decide [letters, typography, size, weighted, height, spaced, aligned, cased, decorated]

theorem plain_textBox (t : Design.Typography) : Plain (textBox n t) := by
  unfold textBox
  cases t.alignVertical <;> simp +decide

theorem plain_image (mode : Design.ScaleMode) : Plain (image n mode) := by
  have address : IsPlain (.named "bg" ("[url(" ++ n.box.placeholder ++ ")]")) := by
    refine isPlain_named (by decide) (within_append.mpr ⟨within_append.mpr ⟨by decide, ?_⟩,
      by decide⟩)
    exact within_dense (Css.dense_placeholder n.box)
  cases mode <;> simp +decide [image, address]

/-- A declaration in brackets. -/
theorem isPlain_css {front value back : String} (present : front ≠ "")
    (opened : Within isClassChar front) (spelled : Within isClassChar value)
    (closed : Within isClassChar back) : IsPlain (.bare (front ++ value ++ back)) := by
  refine ⟨fun empty => ?_, within_append.mpr ⟨within_append.mpr ⟨opened, spelled⟩, closed⟩⟩
  have first := (String.append_eq_empty_iff.mp (String.append_eq_empty_iff.mp empty).1).1
  exact present first

theorem plain_fillClasses {fills : List Design.Paint} (called : ∀ p ∈ fills, FillCalled p.fill) :
    Plain (fillClasses n fills) := by
  unfold fillClasses
  split
  · exact plain_nil
  · rename_i single
    have own := called single (List.mem_singleton_self single)
    split
    · rename_i c fill
      rw [fill] at own
      exact plain_cons.mpr ⟨own.solid.isPlain_named (by decide), plain_nil⟩
    · rename_i angle stops fill
      rw [fill] at own
      exact own.plain_gradient
    · exact plain_image n _
  · refine plain_cons.mpr ⟨isPlain_css (by decide) (by decide) ?_ (by decide), plain_nil⟩
    exact within_arbitrary (Css.within_backgroundValue n _)

theorem plain_blend (fills : List Design.Paint) : Plain (blend fills) := by
  have mode : ∀ m : Design.BlendMode, Within isClassChar (Css.blendMode m) := by
    intro m
    refine Text.within_substitute (by decide) ?_
    cases m <;> decide
  unfold blend
  split
  · split
    · exact plain_cons.mpr ⟨isPlain_named (by decide) (mode _), plain_nil⟩
    · refine plain_cons.mpr ⟨isPlain_css (by decide) (by decide) ?_ (by decide), plain_nil⟩
      refine Text.within_intercalate (by decide) fun text member => ?_
      obtain ⟨p, -, rfl⟩ := List.mem_map.mp member
      exact mode p.blendMode
  · exact plain_nil

theorem plain_border (called : ∀ p ∈ n.box.style.strokes, FillCalled p.fill) :
    Plain (border rounding n) := by
  have outlined (v : Float) : IsPlain ⟨"outline", scaled rounding outlineScale v⟩ :=
    isPlain_scaled (by decide) (by decide) (by decide) rounding v
  have bordered (v : Float) : IsPlain ⟨"border", scaled rounding borderScale v⟩ :=
    isPlain_scaled (by decide) (by decide) (by decide) rounding v
  unfold border
  split
  · rename_i stroke top _ last
    have own := called top (List.mem_of_getLast? last)
    split
    · rename_i c fill
      rw [fill] at own
      have colored : ∀ stem, Within isClassChar stem → IsPlain (.named stem (color c)) :=
        fun stem => own.solid.isPlain_named
      split
      · simp +decide [outlined, colored]
      · simp +decide [bordered, colored]
    · simp only [plain_cons, plain_nil, bordered, and_true, true_and]
      exact isPlain_css (by decide) (by decide)
        (within_arbitrary (Css.within_linearGradient _ _)) (by decide)
    · exact plain_nil
  · exact plain_nil

theorem plain_corners : Plain (corners rounding n) := by
  have one (stem : String) (r : Float) (present : stem ≠ "") (stemmed : Within isClassChar stem) :
      IsPlain ⟨stem, scaled rounding radiusScale r⟩ :=
    isPlain_scaled present stemmed (by decide) rounding r
  unfold corners
  split
  · simp +decide
  · split
    · exact plain_nil
    · simp +decide [one]
    · unfold corner
      simp +decide [one]

theorem plain_effects : Plain (effects rounding n) := by
  have blurs : Plain (n.box.style.effects.flatMap (blur rounding)) := by
    intro u member
    obtain ⟨e, -, own⟩ := List.mem_flatMap.mp member
    have single : Plain (blur rounding e) := by
      cases e with
      | dropShadow s | innerShadow s => exact plain_nil
      | layerBlur r | backgroundBlur r =>
          exact plain_cons.mpr
            ⟨isPlain_scaled (by decide) (by decide) (by decide) rounding _, plain_nil⟩
    exact single u own
  have joined {f : Design.Effect → Option String}
      (each : ∀ e v, f e = some v → Within isValueChar v) :
      Within isClassChar (arbitrary (",".intercalate (n.box.style.effects.filterMap f))) := by
    refine within_arbitrary (Text.within_intercalate (by decide) fun v member => ?_)
    obtain ⟨e, -, own⟩ := List.mem_filterMap.mp member
    exact each e v own
  refine plain_append.mpr ⟨blurs, ?_⟩
  simp only [plain_ite, plain_nil, implies_true, true_and, plain_cons, and_true]
  refine ⟨fun _ _ => isPlain_css (by decide) (by decide) (joined ?_) (by decide),
    fun _ _ => isPlain_named (by decide) (within_bracketed (joined ?_))⟩
  · intro e v own
    cases e <;> simp only [Css.textShadow?, Option.some.injEq, reduceCtorEq] at own
    exact own ▸ Css.within_textShadow _
  · intro e v own
    cases e <;> simp only [Css.boxShadow?, Option.some.injEq, reduceCtorEq] at own
    all_goals exact own ▸ Css.within_boxShadow _ _

theorem plain_finish : Plain (finish n) := by
  have turned : IsPlain (rotation (-n.box.geometry.rotation)) := by
    rcases rotation_cases (-n.box.geometry.rotation) with ⟨-, back⟩ | ⟨-, forth⟩ | bracketed
    · rw [back]
      exact isPlain_named (by decide) (within_plain _)
    · rw [forth]
      exact isPlain_named (by decide) (within_plain _)
    · rw [bracketed]
      refine isPlain_named (by decide)
        (within_append.mpr ⟨within_append.mpr ⟨by decide, within_plain _⟩, by decide⟩)
  have faded : IsPlain (.named "opacity" (percent n.box.style.opacity)) :=
    isPlain_named (by decide) (within_percent _)
  simp +decide [finish, turned, faded]

/-! ## Nodes -/

/-- The colors of the paints of a node are called by names for classes, if by any. -/
def NodeCalled : Prop := ∀ p ∈ n.box.style.paints, FillCalled p.fill

variable {n}

theorem plain_content (called : NodeCalled n) (blank : n.box.style.text = none) :
    Plain (content rounding n) := by
  have fills : ∀ p ∈ n.box.style.fills, FillCalled p.fill :=
    fun p member => called p (List.mem_append_left _ member)
  have strokes : ∀ p ∈ n.box.style.strokes, FillCalled p.fill :=
    fun p member => called p (List.mem_append_right _ member)
  have line : Plain (n.box.style.topSolidStroke?.toList.map fun c => .named "bg" (color c)) := by
    cases top : n.box.style.topSolidStroke? with
    | none => exact plain_nil
    | some c =>
        obtain ⟨p, member, solid⟩ := List.exists_of_findSome?_eq_some top
        have own := strokes p (List.mem_reverse.mp member)
        rw [Design.Paint.solid?_eq_some_iff.mp solid] at own
        exact plain_cons.mpr ⟨own.solid.isPlain_named (by decide), plain_nil⟩
  unfold content
  rw [blank]
  simp only [plain_ite, plain_append, plain_nil, implies_true, true_and]
  exact ⟨fun _ => line, fun _ _ => ⟨⟨plain_fillClasses n fills, plain_blend _⟩,
    plain_border rounding n strokes⟩⟩

/-- The classes of the text of a node are plain but for the family of the font. -/
theorem text_eq_append (called : NodeCalled n) (t : Design.TextStyle) : ∃ before after,
    text rounding n t = before ++ .named "font" (family t.typography.family) :: after ∧
      Plain before ∧ Plain after := by
  have fills : ∀ p ∈ n.box.style.fills, FillCalled p.fill :=
    fun p member => called p (List.mem_append_left _ member)
  have listed : text rounding n t = textPaint n.box.style.fills ++
      Utility.named "font" (family t.typography.family) :: (letters rounding t.typography ++
        textBox n t.typography ++
        if n.box.layout.sizing.horizontal.isHug then [Utility.named "whitespace" "nowrap"]
        else []) := by
    rw [text, typography_eq_cons]
    simp only [List.append_assoc, List.cons_append]
  have line : IsPlain (.named "whitespace" "nowrap") := by decide
  refine ⟨_, _, listed, plain_textPaint fills, ?_⟩
  rw [plain_append, plain_append, plain_ite]
  exact ⟨⟨plain_letters rounding _, plain_textBox n _⟩,
    fun _ => plain_cons.mpr ⟨line, plain_nil⟩, fun _ => plain_nil⟩

/-- What stands before the contents of a node, and what stands after. -/
theorem plain_around :
    Plain (placement rounding n ++ flowOf rounding n ++ size rounding parent n .horizontal ++
        size rounding parent n .vertical) ∧
      Plain (corners rounding n ++ effects rounding n ++ finish n) := by
  have flowing : Plain (flowOf rounding n) := by
    unfold flowOf
    split
    · exact plain_flow rounding _
    · exact plain_nil
  simp only [plain_append, plain_placement, flowing, plain_size, plain_corners, plain_effects,
    plain_finish, and_self]

/-- All classes of a node without text are plain. -/
theorem plain_classes (called : NodeCalled n) (blank : n.box.style.text = none) :
    Plain (classes rounding parent n) := by
  obtain ⟨before, after⟩ := plain_around rounding parent (n := n)
  have whole := plain_append.mpr ⟨plain_append.mpr ⟨before, plain_content rounding called blank⟩,
    after⟩
  rw [classes_eq]
  simpa only [List.append_assoc] using whole

/-- All classes of a text are plain but for the family of its font. -/
theorem classes_text (called : NodeCalled n) {t : Design.TextStyle}
    (present : n.box.style.text = some t) : ∃ before after,
    classes rounding parent n = before ++ .named "font" (family t.typography.family) :: after ∧
      Plain before ∧ Plain after := by
  obtain ⟨first, second, contents, early, late⟩ := text_eq_append rounding called t
  obtain ⟨before, after⟩ := plain_around rounding parent (n := n)
  refine ⟨_, second ++ (corners rounding n ++ effects rounding n ++ finish n), ?_,
    plain_append.mpr ⟨before, early⟩, plain_append.mpr ⟨late, after⟩⟩
  rw [classes_eq, content, present]
  simp only [contents, List.append_assoc, List.cons_append]

end

end Handoff.Tailwind
