import Handoff.Css.Declaration
import Handoff.Css.Node
import Handoff.Proofs.Text.Alphabet
import Handoff.Proofs.Text.SnakeCase
import Handoff.Text.Lines

/-!
What each part of the declarations of a node sets, and the names of properties in script.

`Declares properties ds` says which properties a list of declarations may set, and that their
values are spelled with letters, digits and the signs of values.  There is one table of properties
for each aspect of a node.  Only the family of a font is not spelled so: it stands in its
declaration as it is.

A property is spelled in kebab case, behind a dash if it is the vendor's own, and its name in script
is in camel or Pascal case.  To compute that from the spelling is too much, so the words of a
spelling are told first (`IsKebab`): nothing but letters and digits is left of them
(`isPlain_scriptName`).
-/

namespace Handoff.Css

open Design (Node)
open Text (Within isDenseChar isValueChar within_append)

/-! ## Tables of properties -/

/-- All declarations are of the given properties and have values in the alphabet of values. -/
def Declares (properties : List String) (ds : List Declaration) : Prop :=
  ∀ d ∈ ds, d.property ∈ properties ∧ Within isValueChar d.value

section

variable {properties : List String} {d : Declaration} {ds first later : List Declaration}

@[simp] theorem declares_nil : Declares properties [] :=
  List.forall_mem_nil _

@[simp] theorem declares_cons : Declares properties (d :: ds) ↔
    (d.property ∈ properties ∧ Within isValueChar d.value) ∧ Declares properties ds :=
  List.forall_mem_cons

@[simp] theorem declares_append :
    Declares properties (first ++ later) ↔ Declares properties first ∧ Declares properties later :=
  List.forall_mem_append

@[simp] theorem declares_ite {c : Prop} [Decidable c] {yes no : List Declaration} :
    Declares properties (if c then yes else no) ↔
      (c → Declares properties yes) ∧ (¬c → Declares properties no) := by
  by_cases h : c <;> simp [h]

theorem Declares.mono {wider : List String} (declares : Declares properties ds)
    (subset : properties ⊆ wider) : Declares wider ds :=
  fun d member => ⟨subset (declares d member).1, (declares d member).2⟩

/-- A list leaves the properties alone that are not in its table. -/
theorem Declares.property_ne (declares : Declares properties ds) {property : String}
    (other : property ∉ properties) : ∀ d ∈ ds, d.property ≠ property :=
  fun d member same => other (same ▸ (declares d member).1)

theorem declares_single {property value : String} (listed : property ∈ properties)
    (spelled : Within isValueChar value) : Declares properties [⟨property, value⟩] :=
  declares_cons.mpr ⟨⟨listed, spelled⟩, declares_nil⟩

theorem declares_optional {property : String} (listed : property ∈ properties)
    {value : Option String} (spelled : ∀ v, value = some v → Within isValueChar v) :
    Declares properties (optional property value) := by
  cases value with
  | none => exact declares_nil
  | some v => exact declares_single listed (spelled v rfl)

theorem declares_joined {property : String} (listed : property ∈ properties)
    {values : List String} (spelled : ∀ v ∈ values, Within isValueChar v) :
    Declares properties (joined property values) := by
  unfold joined
  split
  · exact declares_nil
  · exact declares_single listed (Text.within_intercalate (by decide) spelled)

end

/-! ## Values -/

@[simp] theorem within_px (v : Float) : Within isValueChar (px v) :=
  within_append.mpr ⟨(Decimal.within_plain v).value, by decide⟩

/-- But for apostrophes, the family in a declaration has the characters of its name. -/
theorem mem_family {c : Char} (other : c ≠ '\'') (name : String) :
    c ∈ (family name).toList ↔ c ∈ name.toList := by
  unfold family
  split
  · have apostrophe : c ∉ "'".toList := by simpa using other
    simp only [String.toList_append, List.mem_append, apostrophe, false_or, or_false]
  · rfl

theorem within_blendMode (m : Design.BlendMode) : Within isValueChar (blendMode m) := by
  refine Text.within_substitute (by decide) ?_
  cases m <;> decide

theorem dense_placeholder (b : Design.Box) : Within isDenseChar b.placeholder := by
  have side : ∀ v : Float, Within isDenseChar (toString (Decimal.toClampedNat (UInt32.size - 1)
      (Decimal.larger (Decimal.roundHalfAway v) 1.0))) := fun v => (Text.within_repr _).dense
  have host : Within isDenseChar "https://placehold.co/" := by decide +kernel
  have times : Within isDenseChar "x" := by decide
  unfold Design.Box.placeholder Design.placeholderImage
  simp only [within_append, host, times, true_and, and_true]
  exact ⟨side _, side _⟩

theorem within_placeholder (b : Design.Box) : Within isValueChar b.placeholder :=
  (dense_placeholder b).spaced

theorem within_layer (n : Node) (single : Bool) (p : Design.Paint) :
    Within isValueChar (layer n single p) := by
  unfold layer
  cases p.fill with
  | solid color =>
      have own := color.color.within_css
      cases single
      · simp only [Bool.false_eq_true, if_false, within_append]
        exact ⟨⟨⟨⟨by decide, own⟩, by decide⟩, own⟩, by decide⟩
      · exact own
  | linearGradient angle stops => exact within_linearGradient angle stops
  | image imageRef scaleMode =>
      simp only [within_append]
      refine ⟨⟨⟨by decide, within_placeholder n.box⟩, by decide⟩, ?_⟩
      cases scaleMode <;> decide +kernel

theorem within_backgroundValue (n : Node) (fills : List Design.Paint) :
    Within isValueChar (backgroundValue n fills) := by
  refine Text.within_intercalate (by decide) fun text member => ?_
  obtain ⟨p, -, rfl⟩ := List.mem_map.mp member
  exact within_layer n _ p

theorem within_boxShadow (inset : Bool) (s : Design.Shadow) :
    Within isValueChar (boxShadow inset s) := by
  have front : Within isValueChar (if inset then "inset " else "") := by
    cases inset <;> decide
  have blank : Within isValueChar " " := by decide
  unfold boxShadow
  simp only [within_append, front, blank, within_px, s.color.color.within_css, and_self]

theorem within_textShadow (s : Design.Shadow) : Within isValueChar (textShadow s) := by
  have blank : Within isValueChar " " := by decide
  unfold textShadow
  simp only [within_append, blank, within_px, s.color.color.within_css, and_self]

theorem within_padding (p : Design.Padding) : Within isValueChar (padding p) := by
  have blank : Within isValueChar " " := by decide
  unfold padding
  repeat' split
  all_goals simp only [within_append, blank, within_px, and_self]

/-! ## Layout -/

/-- The properties that place a node. -/
def placementProperties : List String := ["position", "left", "top"]

theorem declares_placement (n : Node) : Declares placementProperties (placement n) := by
  unfold placement
  split
  · simp only [declares_cons, within_px, and_true, declares_nil]
    decide
  · split
    · simp only [declares_cons, declares_nil, and_true]
      decide
    · exact declares_nil

/-- The properties of a flow. -/
def flowProperties : List String :=
  ["display", "flex-direction", "justify-content", "align-items", "gap", "flex-wrap", "padding"]

theorem declares_flow (f : Design.Flow) : Declares flowProperties (flow f) := by
  have direction : Within isValueChar (flexDirection f.direction) := by
    cases f.direction <;> decide
  have distribution : Within isValueChar (justify f.distribution) := by
    cases f.distribution <;> decide
  have alignment : Within isValueChar (align f.alignment) := by
    cases f.alignment <;> decide
  simp +decide [flow, flowProperties, direction, distribution, alignment, within_padding]

/-- The properties that size a node along an axis. -/
def sizeProperties (axis : Design.Direction) : List String :=
  [sizeProperty axis, "flex-shrink", "flex", "align-self"]

theorem declares_size (parent : Option Node) (n : Node) (axis : Design.Direction) :
    Declares (sizeProperties axis) (size parent n axis) := by
  have own : sizeProperty axis ∈ sizeProperties axis := List.mem_cons_self
  have others : ∀ property ∈ ["flex-shrink", "flex", "align-self"],
      property ∈ sizeProperties axis := fun _ => List.mem_cons_of_mem _
  unfold size
  split
  · simp +decide [own, others]
  · exact declares_nil
  · split
    · simp +decide [own]
    · simp +decide [others]

/-! ## Contents -/

/-- The properties of the fill of text. -/
def textPaintProperties : List String :=
  ["background", "-webkit-background-clip", "background-clip", "color"]

theorem declares_textPaint (fills : List Design.Paint) :
    Declares textPaintProperties (textPaint fills) := by
  unfold textPaint
  split
  · rename_i color _
    simp [textPaintProperties, color.color.within_css]
  · simp +decide [textPaintProperties, within_linearGradient]
  all_goals exact declares_nil

/-- The properties of a typography but for the family. -/
def letterProperties : List String :=
  ["font-size", "font-weight", "font-style", "line-height", "letter-spacing", "text-align",
    "text-transform", "text-decoration"]

/-- The declarations of a typography begin with the family. -/
theorem declares_typography (t : Design.Typography) : ∃ letters,
    typography t = ⟨"font-family", family t.family⟩ :: letters ∧
      Declares letterProperties letters := by
  have height : ∀ v, t.lineHeight.map px = some v → Within isValueChar v := by
    intro v height
    obtain ⟨pixels, -, rfl⟩ := Option.map_eq_some_iff.mp height
    exact within_px pixels
  have heights : Declares letterProperties (optional "line-height" (t.lineHeight.map px)) :=
    declares_optional (by decide) height
  have aligned : Declares letterProperties (optional "text-align" (textAlign? t.align)) :=
    declares_optional (by decide) (by cases t.align <;> simp +decide)
  have cased : Declares letterProperties
      (optional "text-transform" (textTransform? t.textCase)) :=
    declares_optional (by decide) (by cases t.textCase <;> simp +decide)
  have decorated : Declares letterProperties
      (optional "text-decoration" (textDecoration? t.decoration)) :=
    declares_optional (by decide) (by cases t.decoration <;> simp +decide)
  have weight : Within isValueChar t.weight.repr := (Text.within_repr t.weight).value
  refine ⟨_, rfl, ?_⟩
  simp +decide [heights, aligned, cased, decorated, weight]

/-- The properties that push text down in its box. -/
def textBoxProperties : List String := ["display", "flex-direction", "justify-content"]

theorem declares_textBox (n : Node) (t : Design.Typography) :
    Declares textBoxProperties (textBox n t) := by
  unfold textBox
  cases t.alignVertical <;> simp +decide

/-- The properties of a stack of fills. -/
def backgroundProperties : List String :=
  ["background", "mix-blend-mode", "background-blend-mode"]

theorem declares_background (n : Node) (fills : List Design.Paint) :
    Declares backgroundProperties (background n fills) := by
  unfold background
  split
  · exact declares_nil
  · have value : Declares backgroundProperties [⟨"background", backgroundValue n fills⟩] :=
      declares_single (by decide) (within_backgroundValue n fills)
    refine declares_append.mpr ⟨value, declares_ite.mpr ⟨fun _ => ?_, fun _ => declares_nil⟩⟩
    split
    · simp +decide [within_blendMode]
    · refine declares_single (by decide) (Text.within_intercalate (by decide) fun text member => ?_)
      obtain ⟨p, -, rfl⟩ := List.mem_map.mp member
      exact within_blendMode p.blendMode

/-- The properties of a stroke. -/
def borderProperties : List String := ["outline", "border", "box-sizing", "border-image"]

theorem declares_border (n : Node) : Declares borderProperties (border n) := by
  unfold border
  split
  · rename_i stroke top _ _
    split
    · rename_i color _
      have value : Within isValueChar (px stroke.weight ++ " solid " ++ color.color.css) := by
        simp +decide [color.color.within_css]
      dsimp only
      split <;> simp +decide only [declares_cons, declares_nil, value, and_true]
    · simp +decide [within_linearGradient]
    · exact declares_nil
  · exact declares_nil

/-! ## Corners, effects and the rest -/

theorem declares_corners (n : Node) : Declares ["border-radius"] (corners n) := by
  unfold corners
  split
  · simp +decide
  · split
    · exact declares_nil
    · simp
    · refine declares_single (by decide) (Text.within_intercalate (by decide) fun text member => ?_)
      obtain ⟨r, -, rfl⟩ := List.mem_map.mp member
      exact within_px r

/-- The properties of effects. -/
def effectProperties : List String := ["filter", "backdrop-filter", "text-shadow", "box-shadow"]

theorem declares_effects (n : Node) : Declares effectProperties (effects n) := by
  have blurs : Declares effectProperties (n.box.style.effects.flatMap blur) := by
    intro d member
    obtain ⟨e, -, own⟩ := List.mem_flatMap.mp member
    have single : Declares effectProperties (blur e) := by
      cases e <;> simp +decide [blur]
    exact single d own
  refine declares_append.mpr ⟨blurs, declares_ite.mpr ⟨fun _ => ?_, fun _ => ?_⟩⟩
  · refine declares_joined (by decide) fun v member => ?_
    obtain ⟨e, -, own⟩ := List.mem_filterMap.mp member
    cases e <;> simp only [textShadow?, Option.some.injEq, reduceCtorEq] at own
    exact own ▸ within_textShadow _
  · refine declares_joined (by decide) fun v member => ?_
    obtain ⟨e, -, own⟩ := List.mem_filterMap.mp member
    cases e <;> simp only [boxShadow?, Option.some.injEq, reduceCtorEq] at own
    all_goals exact own ▸ within_boxShadow _ _

/-- The properties of opacity, clipping and rotation. -/
def finishProperties : List String := ["opacity", "overflow", "transform", "transform-origin"]

theorem declares_finish (n : Node) : Declares finishProperties (finish n) := by
  have number : ∀ x, Within isValueChar (Decimal.plain x) :=
    fun x => (Decimal.within_plain x).value
  simp +decide [finish, number]

/-! ## All together -/

/-- The properties of what fills a node, but for the family of a font. -/
def contentProperties : List String :=
  textPaintProperties ++ letterProperties ++ textBoxProperties ++ ["white-space"] ++
    backgroundProperties ++ borderProperties

/-- The properties in the declarations of a node, but for the family of a font. -/
def nodeProperties : List String :=
  placementProperties ++ flowProperties ++ sizeProperties .horizontal ++ sizeProperties .vertical ++
    contentProperties ++ ["border-radius"] ++ effectProperties ++ finishProperties

/-- A node without text sets nothing but what paints it. -/
theorem declares_content {n : Node} (plain : n.box.style.text = none) :
    Declares (backgroundProperties ++ borderProperties) (content n) := by
  unfold content
  rw [plain]
  simp only [declares_ite, declares_append]
  refine ⟨fun _ => ?line, fun _ => ⟨fun _ => declares_nil, fun _ => ⟨?filled, ?framed⟩⟩⟩
  case line =>
    refine declares_optional (by decide) fun v value => ?_
    obtain ⟨color, -, rfl⟩ := Option.map_eq_some_iff.mp value
    exact color.color.within_css
  case filled => exact (declares_background n n.box.style.fills).mono (by decide)
  case framed => exact (declares_border n).mono (by decide)

theorem content_of_text {n : Node} {t : Design.TextStyle} (present : n.box.style.text = some t) :
    content n = text n t := by
  rw [content, present]

/-- A text sets the family of its font, and nothing else but properties of the table. -/
theorem declares_text (n : Node) (t : Design.TextStyle) : ∃ before after,
    text n t = before ++ ⟨"font-family", family t.typography.family⟩ :: after ∧
      Declares contentProperties before ∧ Declares contentProperties after := by
  obtain ⟨letters, listed, declares⟩ := declares_typography t.typography
  refine ⟨textPaint n.box.style.fills, letters ++ textBox n t.typography ++
    (if n.box.layout.sizing.horizontal.isHug then [⟨"white-space", "nowrap"⟩] else []), ?_, ?_, ?_⟩
  · rw [text, listed]
    simp only [List.append_assoc, List.cons_append]
  · exact (declares_textPaint _).mono (by decide)
  · simp only [declares_append, declares_ite, declares_nil, implies_true, and_true]
    refine ⟨⟨declares.mono (by decide), ?boxed⟩, fun _ => ?single⟩
    case boxed => exact (declares_textBox n t.typography).mono (by decide)
    case single => exact declares_single (by decide) (by decide)

/-- What fills a node leaves all other properties alone. -/
theorem content_property_ne (n : Node) {property : String}
    (other : property ∉ "font-family" :: contentProperties) :
    ∀ d ∈ content n, d.property ≠ property := by
  rw [List.mem_cons, not_or] at other
  intro d member
  cases text : n.box.style.text with
  | none =>
      exact ((declares_content text).mono (by decide)).property_ne other.2 d member
  | some t =>
      obtain ⟨before, after, listed, first, later⟩ := declares_text n t
      rw [content_of_text text, listed] at member
      rcases List.mem_append.mp member with early | late
      · exact first.property_ne other.2 d early
      · rcases List.mem_cons.mp late with rfl | late
        · exact Ne.symm other.1
        · exact later.property_ne other.2 d late

/-- The declarations of the flow of a node, if there is one. -/
def flowOf (n : Node) : List Declaration :=
  match n.box.layout.mode with
  | .flow f => flow f
  | .absolute => []

/-- The declarations of a node, an aspect at a time. -/
theorem declarations_eq (parent : Option Node) (n : Node) :
    declarations parent n =
      settle (placement n ++ flowOf n ++ size parent n .horizontal ++ size parent n .vertical ++
        content n ++ corners n ++ effects n ++ finish n) :=
  rfl

theorem declares_flowOf (n : Node) : Declares flowProperties (flowOf n) := by
  unfold flowOf
  split
  · exact declares_flow _
  · exact declares_nil

/-- What stands before the contents of a node, and what stands after. -/
theorem declares_around (parent : Option Node) (n : Node) :
    Declares nodeProperties
        (placement n ++ flowOf n ++ size parent n .horizontal ++ size parent n .vertical) ∧
      Declares nodeProperties (corners n ++ effects n ++ finish n) := by
  have arranged : Declares nodeProperties (flowOf n) := (declares_flowOf n).mono (by decide)
  simp only [declares_append, arranged, and_true]
  refine ⟨⟨⟨?placed, ?wide⟩, ?high⟩, ⟨?rounded, ?effects⟩, ?finished⟩
  case placed => exact (declares_placement n).mono (by decide)
  case wide => exact (declares_size parent n .horizontal).mono (by decide)
  case high => exact (declares_size parent n .vertical).mono (by decide)
  case rounded => exact (declares_corners n).mono (by decide)
  case effects => exact (declares_effects n).mono (by decide)
  case finished => exact (declares_finish n).mono (by decide)

/-! ## Settled declarations -/

theorem mem_set_self (d : Declaration) (ds : List Declaration) : d ∈ set ds d := by
  fun_induction set ds d <;> simp_all

theorem mem_set_of_mem {d e : Declaration} {ds : List Declaration} (member : d ∈ ds)
    (other : e.property ≠ d.property) : d ∈ set ds e := by
  fun_induction set ds e with
  | case1 => cases member
  | case2 first rest same =>
      rcases List.mem_cons.mp member with rfl | later
      · exact absurd same.symm other
      · exact List.mem_cons_of_mem _ later
  | case3 first rest _ ih =>
      rcases List.mem_cons.mp member with rfl | later
      · exact List.mem_cons_self
      · exact List.mem_cons_of_mem _ (ih later)

/-- A declaration stays if none after it is of its property. -/
theorem mem_settle {d : Declaration} (before : List Declaration) {after : List Declaration}
    (last : ∀ e ∈ after, e.property ≠ d.property) : d ∈ settle (before ++ d :: after) := by
  rw [settle, List.foldl_append, List.foldl_cons]
  have kept : ∀ (rest ds : List Declaration), d ∈ ds → (∀ e ∈ rest, e.property ≠ d.property) →
      d ∈ rest.foldl set ds := by
    intro rest
    induction rest with
    | nil => exact fun ds member _ => member
    | cons e rest ih =>
        intro ds member others
        obtain ⟨other, others⟩ := List.forall_mem_cons.mp others
        exact ih _ (mem_set_of_mem member other) others
  exact kept after _ (mem_set_self d _) last

theorem mem_of_mem_settle {d : Declaration} {ds : List Declaration} (member : d ∈ settle ds) :
    d ∈ ds := by
  have one : ∀ (kept : List Declaration) (e : Declaration), d ∈ set kept e → d ∈ kept ∨ d = e := by
    intro kept e
    fun_induction set kept e <;> grind
  have all : ∀ (rest kept : List Declaration), d ∈ rest.foldl set kept → d ∈ kept ∨ d ∈ rest := by
    intro rest
    induction rest with
    | nil => exact fun kept inside => .inl inside
    | cons e rest ih =>
        intro kept inside
        rcases ih _ inside with inside | later
        · rcases one kept e inside with inside | rfl
          · exact .inl inside
          · exact .inr List.mem_cons_self
        · exact .inr (List.mem_cons_of_mem e later)
  exact (all ds [] member).resolve_left List.not_mem_nil

/-- Of a node without text every declaration is one of the table. -/
theorem declares_declarations (parent : Option Node) {n : Node}
    (plain : n.box.style.text = none) : Declares nodeProperties (declarations parent n) := by
  have around := declares_around parent n
  have whole := declares_append.mpr
    ⟨declares_append.mpr ⟨around.1, (declares_content plain).mono (by decide)⟩, around.2⟩
  rw [declarations_eq]
  simp only [← List.append_assoc] at whole
  exact fun d member => whole d (mem_of_mem_settle member)

/-- Of a text one declaration is its family, and all others are of the table. -/
theorem declarations_text (parent : Option Node) {n : Node} {t : Design.TextStyle}
    (text : n.box.style.text = some t) :
    ∃ before after,
      declarations parent n =
          settle (before ++ ⟨"font-family", family t.typography.family⟩ :: after) ∧
        Declares nodeProperties before ∧ Declares nodeProperties after := by
  obtain ⟨first, second, contents, before, after⟩ := declares_text n t
  have around := declares_around parent n
  refine ⟨_, second ++ (corners n ++ effects n ++ finish n), ?_,
    declares_append.mpr ⟨around.1, before.mono (by decide)⟩,
    declares_append.mpr ⟨after.mono (by decide), around.2⟩⟩
  rw [declarations_eq, content_of_text text]
  simp only [contents, List.append_assoc, List.cons_append]

/-- A declaration of a node is one of the table or the family of its font. -/
theorem mem_declarations {parent : Option Node} {n : Node} {d : Declaration}
    (member : d ∈ declarations parent n) :
    (d.property ∈ nodeProperties ∧ Within isValueChar d.value) ∨
      ∃ t, n.box.style.text = some t ∧ d = ⟨"font-family", family t.typography.family⟩ := by
  cases text : n.box.style.text with
  | none => exact .inl (declares_declarations parent text d member)
  | some t =>
      obtain ⟨before, after, settled, first, later⟩ := declarations_text parent text
      rw [settled] at member
      rcases List.mem_append.mp (mem_of_mem_settle member) with early | late
      · exact .inl (first d early)
      · rcases List.mem_cons.mp late with own | late
        · exact .inr ⟨t, rfl, own⟩
        · exact .inl (later d late)

/-- The family of its font is among the declarations of a text. -/
theorem family_mem_declarations (parent : Option Node) {n : Node} {t : Design.TextStyle}
    (text : n.box.style.text = some t) :
    ⟨"font-family", family t.typography.family⟩ ∈ declarations parent n := by
  obtain ⟨before, after, settled, -, later⟩ := declarations_text parent text
  have apart : "font-family" ∉ nodeProperties := by decide +kernel
  rw [settled]
  exact mem_settle before (later.property_ne apart)

end Handoff.Css

/-! ## Names in script -/

namespace Handoff.Css

/-- Words in lower case with dashes between them. -/
def IsKebab (cs : List Char) : Prop :=
  cs = ['-'].intercalate (Text.splitChars '-' cs) ∧
    ∀ word ∈ Text.splitChars '-' cs, word ≠ [] ∧ word.all Char.isLower = true

instance (cs : List Char) : Decidable (IsKebab cs) :=
  inferInstanceAs (Decidable (_ ∧ _))

/-- A property without the dash of a vendor. -/
def common : List Char → List Char
  | '-' :: vendor => vendor
  | cs => cs

theorem isPiece_of_isKebab {cs : List Char} (kebab : IsKebab cs) :
    ∀ word ∈ Text.words cs, Text.IsPiece word := by
  have each : ∀ word ∈ Text.splitChars '-' cs, Text.IsPiece word :=
    fun word among => Text.isPiece_of_all_isLower (kebab.2 word among).1 (kebab.2 word among).2
  have words := Text.words_kebab each
  rw [← kebab.1] at words
  rwa [words]

theorem isPlain_scriptName {property : String} (kebab : IsKebab (common property.toList)) :
    ∀ c ∈ (scriptName property).toList, Naming.isPlain c = true := by
  unfold scriptName
  split
  · rename_i vendor front
    rw [front] at kebab
    refine Text.isPlain_of_mem_pascal ?_
    rw [String.toList_ofList]
    exact isPiece_of_isKebab kebab
  · rename_i ordinary
    have whole : common property.toList = property.toList := by
      unfold common
      split
      · rename_i vendor front
        exact absurd front (ordinary vendor)
      · rfl
    rw [whole] at kebab
    exact Text.isPlain_of_mem_camel (isPiece_of_isKebab kebab)

end Handoff.Css
