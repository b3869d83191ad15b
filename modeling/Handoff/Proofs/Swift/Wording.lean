import Handoff.Proofs.Css.Properties
import Handoff.Proofs.Design.ColorNames
import Handoff.Proofs.Design.TextGroups
import Handoff.Proofs.Design.TypeNames
import Handoff.Proofs.Design.Wording
import Handoff.Proofs.Emission
import Handoff.Proofs.Literals
import Handoff.Proofs.Template.Scaffold
import Handoff.Proofs.Text.Indentation
import Handoff.Swift.Code

/-!
The words of SwiftUI code.

`View.Holds v words` says which words a view has besides its comment: those of its head, of the
views in it and of its modifiers.  Most modifiers have none (`Plain`).  A view is printed with its
comment in front (`View.Holds.renders`), so the view of a node has the words of the nodes below it
as they are lined up (`renders_view`).

The views of an application are indented once more, which may take a carriage return off the end
of a comment; so the words of its code are told as long as there is none (`spells_app`).
-/

namespace Handoff.Swift

open Decimal (plain)
open Design (Box Node ColorRef)
open Text (Within within_append within_chars isCodeChar Word Lexis UnbrokenComments)
open Text.Lexis (InTurn Plain Spells plain_ite plain_nil)

/-- Swift with its double quotes. -/
def lexis : Lexis where
  quoting := quoting
  escape := Text.swiftEscape
  writes := writes_swiftEscape
  bare := bare_swiftEscape
  ends := Text.ends_swiftEscape
  dense := List.all_iff_forall_prop.mp rfl

theorem spells_literal (s : String) : lexis.Spells (literal s) [.literal s] := by
  have own : literal s = lexis.literal s := by
    rw [← String.toList_inj, toList_literal, Lexis.toList_literal]
    rfl
  exact own ▸ .literal s

theorem spells_placeholder (b : Box) : lexis.Spells (placeholder b) [] := by
  have own : lexis.literal b.placeholder = placeholder b :=
    Lexis.literal_eq_of_dense (Css.dense_placeholder b)
  exact own ▸ .address (Css.dense_placeholder b)

/-! ## Views -/

variable {v : View} {views : List View} {words own : List Word} {text : String}
  {modifiers later : List String} {comment : Option String}

/-- A view is printed with the given words, wherever it stands. -/
def Renders (v : View) (words : List Word) : Prop :=
  ∀ indent, lexis.Spells (v.render indent) words

/-- The words of a view besides those of its comment: of its head, the views in it, and its
modifiers. -/
inductive View.Holds (v : View) : List Word → Prop
  | intro {head inside after : List Word} (first : lexis.Spells v.head head)
      (second : InTurn Renders v.children inside)
      (third : InTurn lexis.Spells v.modifiers after) : View.Holds v (head ++ (inside ++ after))

/-- The word of the comment of a view. -/
def labelWords (comment : Option String) : List Word :=
  comment.toList.map fun label => .comment (" " ++ label)

theorem spells_commentText (line : ∀ label, comment = some label → Text.OneLine label)
    (indent : Nat) :
    lexis.Spells (View.commentText indent comment) (labelWords comment) := by
  cases comment with
  | none => exact .nil
  | some label => exact .margin (Text.within_spaces indent) (line label rfl)

theorem spells_modifierText (spells : lexis.Spells text words) (indent : Nat) :
    lexis.Spells (View.modifierText indent text) words := by
  have margin : ∀ c ∈ List.replicate indent ' ', isCodeChar c = true := by
    intro c member
    rw [List.eq_of_mem_replicate member]
    rfl
  have start : Within isCodeChar ("\n" ++ Text.spaces indent ++ ".") :=
    within_append.mpr
      ⟨within_append.mpr ⟨within_chars rfl, Text.within_spaces indent⟩, within_chars rfl⟩
  exact .after start (spells.substitute margin)

theorem spells_renderList (each : InTurn Renders views words) (indent : Nat) :
    lexis.Spells (View.renderList indent views) words := by
  induction each with
  | nil =>
      rw [View.renderList]
      exact .nil
  | cons own _ ih =>
      rw [View.renderList]
      exact .append (.before (own indent) (within_chars rfl)) ih

theorem inTurn_modifierTexts (each : InTurn lexis.Spells modifiers words) (indent : Nat) :
    InTurn lexis.Spells (modifiers.map (View.modifierText indent)) words := by
  induction each with
  | nil => exact .nil
  | cons own _ ih => exact .cons (spells_modifierText own indent) ih

/-- A view is printed with its comment and all it has. -/
theorem View.Holds.renders (holds : v.Holds words)
    (line : ∀ label, v.comment = some label → Text.OneLine label) :
    Renders v (labelWords v.comment ++ words) := by
  intro indent
  obtain ⟨comment, name, children, modifiers⟩ := v
  obtain ⟨first, second, third⟩ := holds
  have margin := Text.within_spaces indent
  have front := (spells_commentText line indent).before margin
  have back := Spells.join (inTurn_modifierTexts third (indent + View.step))
  rw [← List.append_assoc, ← List.append_assoc]
  cases children with
  | nil =>
      cases second
      rw [View.render]
      exact .append (.append (.append front first) .nil) back
  | cons child rest =>
      have opened := (spells_renderList second (indent + View.step)).after
        (within_chars rfl : Within isCodeChar " \x7b\n")
      rw [View.render]
      refine .append (.append (.append front first) (.before (opened.before margin) ?_)) back
      exact within_chars rfl

theorem View.Holds.renders_bare (holds : v.Holds words) (bare : v.comment = none) :
    Renders v words := by
  have renders := holds.renders fun label same => nomatch bare.symm.trans same
  rwa [bare] at renders

theorem View.Holds.modified (holds : v.Holds words) (more : InTurn lexis.Spells later own) :
    (v.modified later).Holds (words ++ own) := by
  obtain ⟨first, second, third⟩ := holds
  rw [List.append_assoc, List.append_assoc]
  exact .intro first second (third.append more)

theorem View.Holds.commented (holds : v.Holds words) (comment : Option String) :
    (v.commented comment).Holds words := by
  obtain ⟨first, second, third⟩ := holds
  exact .intro first second third

theorem holds_leaf (spells : lexis.Spells text words) : (View.leaf text).Holds words := by
  have holds := View.Holds.intro (v := View.leaf text) spells .nil .nil
  rwa [List.append_nil, List.append_nil] at holds

theorem holds_group (code : Within isCodeChar text) (each : InTurn Renders views words) :
    (View.group text views).Holds words := by
  have holds := View.Holds.intro (v := View.group text views) (.code code) each .nil
  rwa [List.append_nil] at holds

theorem plain_code (code : Within isCodeChar text) : Plain lexis.Spells [text] :=
  List.forall_mem_singleton.mpr (.code code)

theorem View.Holds.modified_plain (holds : v.Holds words) (plain : Plain lexis.Spells later) :
    (v.modified later).Holds words :=
  List.append_nil words ▸ holds.modified (.none plain)

/-! ## Values -/

variable {b : Box} {n : Node}

theorem within_plain (x : Float) : Within isCodeChar (plain x) :=
  (Decimal.within_plain x).code

theorem within_color {c : ColorRef} (named : c.Named) : Within isCodeChar (color c) := by
  unfold color
  dsimp only
  split
  · rename_i p called
    have name := (named p called).code
    split
    · exact name
    · simp only [within_append, name, within_plain, true_and, and_true]
      and_intros <;> exact within_chars rfl
  · have channel : ∀ x, Within isCodeChar (component x) := fun x => (Decimal.within_atMost _ _).code
    have opacity : Within isCodeChar (if c.color.isOpaque then ")" else
        ", opacity: " ++ plain (Decimal.widen c.color.a) ++ ")") := by
      split
      · decide
      · simp only [within_append, within_plain, and_true]
        and_intros <;> exact within_chars rfl
    simp only [within_append, channel, opacity, and_true]
    and_intros <;> exact within_chars rfl

theorem within_unitPoint (x y : Float) : Within isCodeChar (unitPoint x y) := by
  have table : ∀ entry ∈ pointNames, Within isCodeChar entry.2 := by decide
  unfold unitPoint
  dsimp only
  split
  · rename_i name found
    split at found
    · obtain ⟨before, after, listed, -⟩ := List.lookup_eq_some_iff.mp found
      exact table (_, name) (listed ▸ List.mem_append_right before List.mem_cons_self)
    · cases found
  · simp only [within_append, within_plain, and_true]
    and_intros <;> exact within_chars rfl

theorem within_linearGradient {angle : Float} {stops : List Design.GradientStop}
    (named : ∀ s ∈ stops, s.color.Named) : Within isCodeChar (linearGradient angle stops) := by
  have each : ∀ text ∈ stops.map stop, Within isCodeChar text := by
    refine List.forall_mem_map.mpr fun s member => ?_
    unfold stop
    simp only [within_append, within_color (named s member), within_plain, and_true]
    and_intros <;> exact within_chars rfl
  have joined : Within isCodeChar (", ".intercalate (stops.map stop)) :=
    Text.within_intercalate (within_chars rfl) each
  unfold linearGradient
  dsimp only
  simp only [within_append, joined, within_unitPoint, and_true]
  and_intros <;> exact within_chars rfl

theorem within_shape (b : Box) : Within isCodeChar (shape b) := by
  unfold shape
  split
  · decide
  · split
    · decide
    · simp only [within_append, within_plain, and_true]
      and_intros <;> exact within_chars rfl
    · simp only [within_append, within_plain, and_true]
      and_intros <;> exact within_chars rfl

theorem spells_fillStyle {fill : Design.Fill} (named : fill.Named) :
    lexis.Spells (fillStyle b fill) [] := by
  cases fill with
  | solid c => exact .code (within_color named.color)
  | linearGradient angle stops => exact .code (within_linearGradient named.stops)
  | image hash scaleMode =>
      exact .before (.after (within_chars rfl) (spells_placeholder b)) (within_chars rfl)

/-- The modifiers of a typography have the family as their only word. -/
theorem inTurn_typography (t : Design.Typography) :
    InTurn lexis.Spells (typography t) [.literal t.family] := by
  have weight : Within isCodeChar (fontWeight t.weight) := by
    unfold fontWeight
    repeat' split
    all_goals decide
  have behind : Within isCodeChar (", size: " ++ plain t.size ++ ").weight(" ++
      fontWeight t.weight ++ "))") := by
    simp only [within_append, within_plain, weight, and_true]
    and_intros <;> exact within_chars rfl
  have font : lexis.Spells ("font(.custom(" ++ literal t.family ++ ", size: " ++ plain t.size ++
      ").weight(" ++ fontWeight t.weight ++ "))") [.literal t.family] := by
    have spells := Spells.before (.after (within_chars rfl : Within isCodeChar "font(.custom(")
      (spells_literal t.family)) behind
    simp only [← String.append_assoc] at spells
    exact spells
  have tracking : Within isCodeChar ("tracking(" ++ plain t.letterSpacing ++ ")") := by
    simp only [within_append, within_plain, and_true]
    and_intros <;> exact within_chars rfl
  have decoration : Plain lexis.Spells (textDecoration t.decoration) := by
    cases t.decoration
    · exact plain_nil
    · exact plain_code (within_chars rfl)
    · exact plain_code (within_chars rfl)
  have italic : Plain lexis.Spells (if t.italic then ["italic()"] else []) :=
    plain_ite (plain_code (within_chars rfl))
  unfold typography
  refine .before (.before (.before (.before (.singleton font) italic) ?spacing)
    (plain_ite (plain_code tracking))) decoration
  case spacing =>
    split
    · refine plain_ite (plain_code ?_)
      simp only [within_append, within_plain, and_true]
      and_intros <;> exact within_chars rfl
    · exact plain_nil

/-! ## Leaves -/

theorem holds_textView (named : b.Named) (t : Design.TextStyle) :
    (textView b t).Holds t.wording := by
  have fill : Plain lexis.Spells (textFill b.style.fills) := by
    unfold textFill
    split
    · rename_i c top
      refine plain_code ?_
      simp only [within_append, within_color (named.lastFill top).color, and_true]
      and_intros <;> exact within_chars rfl
    · rename_i angle stops top
      refine plain_code ?_
      simp only [within_append, within_linearGradient (named.lastFill top).stops, and_true]
      and_intros <;> exact within_chars rfl
    · exact plain_nil
    · exact plain_nil
  have align : Plain lexis.Spells (textAlign t.typography.align) := by
    cases t.typography.align
    · exact plain_nil
    · exact plain_code (within_chars rfl)
    · exact plain_code (within_chars rfl)
    · exact plain_nil
  have head := Spells.before (.after (within_chars rfl : Within isCodeChar "Text(")
    (spells_literal (t.typography.textCase.apply t.characters)))
    (within_chars rfl : Within isCodeChar ")")
  exact (holds_leaf head).modified
    (.before (.before (inTurn_typography t.typography) fill) align)

theorem holds_imageView (b : Box) : (imageView b).Holds [] := by
  have head := Spells.before
    (.after (within_chars rfl : Within isCodeChar "AsyncImage(url: URL(string: ")
      (spells_placeholder b)) (within_chars rfl : Within isCodeChar "))")
  exact holds_leaf head

theorem holds_lineView (named : b.Named) : (lineView b).Holds [] := by
  have rectangle : (View.leaf "Rectangle()").Holds [] := holds_leaf (.code (within_chars rfl))
  refine rectangle.modified_plain (List.forall_mem_map.mpr fun c member => .code ?_)
  have color := within_color (named.topStroke (Option.mem_toList.mp member))
  simp only [within_append, color, and_true]
  and_intros <;> exact within_chars rfl

theorem holds_shapeView (named : b.Named) : (shapeView b).Holds [] := by
  have outline : (View.leaf (shape b)).Holds [] := holds_leaf (.code (within_shape b))
  refine outline.modified_plain (List.forall_mem_map.mpr fun p member => ?_)
  have last := List.mem_of_getLast? (Option.mem_toList.mp member)
  exact .before (.after (within_chars rfl) (spells_fillStyle (named.fill last))) (within_chars rfl)

/-! ## Stacks -/

theorem inTurn_spaced (each : InTurn Renders views words) :
    InTurn Renders (views.intersperse spacer) words := by
  have spacer : Renders spacer [] := (holds_leaf (.code (within_chars rfl))).renders_bare rfl
  induction each with
  | nil => exact .nil
  | @cons v rest first later own others ih =>
      cases others with
      | nil => exact .cons own .nil
      | cons next others =>
          have behind := InTurn.cons spacer ih
          exact .cons own behind

theorem within_stackHead (f : Design.Flow) {spacing : String} (code : Within isCodeChar spacing) :
    Within isCodeChar (stackHead f spacing) := by
  have name : Within isCodeChar (stackName f.direction) := by
    cases f.direction <;> decide
  have alignment : Within isCodeChar (stackAlignment f.direction f.alignment) := by
    cases f.direction <;> cases f.alignment <;> decide
  simp only [stackHead, within_append, name, alignment, code, and_true, true_and]
  and_intros <;> exact within_chars rfl

theorem holds_stackView (f : Design.Flow) (each : InTurn Renders views words) :
    (stackView f views).Holds words := by
  unfold stackView
  split
  · exact holds_group (within_stackHead f (within_chars rfl)) (inTurn_spaced each)
  · exact holds_group (within_stackHead f (within_plain _)) each

theorem holds_layered (each : InTurn Renders views words) : (layered views).Holds words :=
  holds_group (within_chars rfl) each

section

variable {f : Node → View} {g : Node → List Word} {children : List Node}

theorem holds_containerView (b : Box) (each : ∀ c ∈ children, Renders (f c) (g c)) :
    (containerView b (children.map fun c => (c, f c))).Holds ((b.lineUp children).flatMap g) := by
  have part : ∀ p : Node → Bool,
      InTurn Renders ((children.filter p).map f) ((children.filter p).flatMap g) :=
    fun p => .flatMap fun c member => each c (List.mem_of_mem_filter member)
  unfold containerView Box.lineUp
  rw [List.isEmpty_map, Node.placedAs_false, Node.placedAs_true]
  by_cases absent : children.isEmpty = true
  · have clear : (View.leaf "Color.clear").Holds [] := holds_leaf (.code (within_chars rfl))
    rw [if_pos absent, List.isEmpty_iff.mp absent]
    cases b.layout.mode <;> exact clear
  · rw [if_neg absent]
    cases b.layout.mode with
    | absolute =>
        rw [List.map_map]
        exact holds_layered (.flatMap each)
    | flow flow =>
        dsimp only
        have line := holds_stackView flow (part (!·.isAbsolute))
        have bare : (stackView flow ((children.filter (!·.isAbsolute)).map f)).comment = none := by
          unfold stackView
          split <;> rfl
        rw [List.flatMap_append]
        split
        · rename_i nothing
          rw [List.map_eq_nil_iff.mp nothing, List.flatMap_nil, List.append_nil]
          exact line
        · exact holds_layered (.cons (line.renders_bare bare) (part (·.isAbsolute)))

/-- What a node is holds the words of its text and of its children. -/
theorem holds_base (named : n.box.Named) (leaf : isLeaf n = true → n.children = [])
    (each : ∀ c ∈ n.children, Renders (f c) (g c)) :
    (base n (n.children.map fun c => (c, f c))).Holds
      (n.box.style.text.toList.flatMap (·.wording) ++ (n.box.lineUp n.children).flatMap g) := by
  have childless : isLeaf n = true → (n.box.lineUp n.children).flatMap g = [] := by
    intro isLeaf
    rw [leaf isLeaf, Box.lineUp_nil, List.flatMap_nil]
  unfold base
  cases style : n.box.style.text with
  | some t =>
      rw [childless (by rw [isLeaf, style]; rfl), Option.toList_some, List.flatMap_singleton,
        List.append_nil]
      exact holds_textView named t
  | none =>
      rw [Option.toList_none, List.flatMap_nil, List.nil_append]
      by_cases image : n.box.kind = .image
      · rw [childless (by simp [isLeaf, image])]
        simp only [image, if_true]
        exact holds_imageView n.box
      · simp only [image, if_false]
        split
        · rename_i line
          rw [childless (by simp [isLeaf, line])]
          exact holds_lineView named
        · split
          · rename_i shape
            rw [childless (by simp [isLeaf, shape])]
            exact holds_shapeView named
          · exact holds_containerView n.box each

end

/-! ## Modifiers -/

theorem plain_padding (p : Design.Padding) : Plain lexis.Spells (padding p) := by
  have along : ∀ {edges} v, Within isCodeChar edges →
      Plain lexis.Spells (paddingAlong edges v) := by
    intro edges v code
    refine plain_ite (plain_code ?_)
    simp only [within_append, code, within_plain, and_true]
    and_intros <;> exact within_chars rfl
  unfold padding
  split
  · exact plain_nil
  · split
    · refine plain_code ?_
      simp only [within_append, within_plain, and_true]
      and_intros <;> exact within_chars rfl
    · split
      · exact .append (along _ (within_chars rfl)) (along _ (within_chars rfl))
      · refine plain_code ?_
        simp only [within_append, within_plain, and_true]
        and_intros <;> exact within_chars rfl

theorem within_frameArgs {flexible : Bool} {plainName boundName : String}
    (plainCode : Within isCodeChar plainName) (boundCode : Within isCodeChar boundName)
    (extent : Design.Extent) :
    ∀ text ∈ frameArgs flexible plainName boundName extent, Within isCodeChar text := by
  have bound : ∀ {word : String} {value : String}, Within isCodeChar word →
      Within isCodeChar value → Within isCodeChar (word ++ boundName ++ value) :=
    fun word value => within_append.mpr ⟨within_append.mpr ⟨word, boundCode⟩, value⟩
  have number : ∀ v, Within isCodeChar (": " ++ plain v) :=
    fun v => within_append.mpr ⟨within_chars rfl, within_plain v⟩
  unfold frameArgs
  cases extent with
  | hug => exact List.forall_mem_nil _
  | fill => exact List.forall_mem_singleton.mpr (bound (within_chars rfl) (within_chars rfl))
  | fixed v =>
      dsimp only
      split
      · refine List.forall_mem_cons.mpr ⟨?_, List.forall_mem_singleton.mpr ?_⟩
        · rw [String.append_assoc]
          exact bound (within_chars rfl) (number v)
        · rw [String.append_assoc]
          exact bound (within_chars rfl) (number v)
      · refine List.forall_mem_singleton.mpr ?_
        rw [String.append_assoc]
        exact within_append.mpr ⟨plainCode, number v⟩

theorem within_frameAlignment? (b : Box) :
    ∀ name, frameAlignment? b = some name → Within isCodeChar name := by
  intro name present
  unfold frameAlignment? at present
  split at present <;> cases present <;> decide

theorem plain_frame (n : Node) : Plain lexis.Spells (frame n) := by
  unfold frame
  dsimp only
  split
  · exact plain_nil
  · have alignment : ∀ name, (if n.children.isEmpty = true ∧ n.box.style.text.isNone = true then
        none else frameAlignment? n.box) = some name → Within isCodeChar name := by
      intro name present
      split at present
      · cases present
      · exact within_frameAlignment? n.box name present
    refine plain_code
      (within_append.mpr ⟨within_append.mpr ⟨within_chars rfl, ?_⟩, within_chars rfl⟩)
    refine Text.within_intercalate (within_chars rfl) (List.forall_mem_append.mpr
      ⟨List.forall_mem_append.mpr ⟨within_frameArgs (within_chars rfl) (within_chars rfl) _,
        within_frameArgs (within_chars rfl) (within_chars rfl) _⟩,
        List.forall_mem_map.mpr fun name member => ?_⟩)
    exact within_append.mpr ⟨within_chars rfl, alignment name (Option.mem_toList.mp member)⟩

theorem plain_clipShape (b : Box) : Plain lexis.Spells ["clipShape(" ++ shape b ++ ")"] := by
  refine plain_code ?_
  simp only [within_append, within_shape, and_true]
  and_intros <;> exact within_chars rfl

theorem holds_fillLayer (named : b.Named) {p : Design.Paint} (member : p ∈ b.style.fills) :
    (fillLayer b p).Holds [] := by
  have outline : (View.leaf (shape b)).Holds [] := holds_leaf (.code (within_shape b))
  have named := named.fill member
  unfold fillLayer
  split
  · rename_i c fill
    rw [fill] at named
    have color := within_color named.color
    split
    · exact holds_leaf (.code color)
    · refine outline.modified_plain (plain_code ?_)
      simp only [within_append, color, and_true]
      and_intros <;> exact within_chars rfl
  · rename_i angle stops fill
    rw [fill] at named
    refine outline.modified_plain (plain_code ?_)
    simp only [within_append, within_linearGradient named.stops, and_true]
    and_intros <;> exact within_chars rfl
  · split
    · exact holds_imageView b
    · exact (holds_imageView b).modified_plain (plain_clipShape b)

theorem comment_fillLayer (b : Box) (p : Design.Paint) : (fillLayer b p).comment = none := by
  unfold fillLayer
  repeat' split
  all_goals rfl

theorem plain_background (named : b.Named) : Plain lexis.Spells (background b) := by
  have layer : ∀ p ∈ b.style.fills, Renders (fillLayer b p) [] :=
    fun p member => (holds_fillLayer named member).renders_bare (comment_fillLayer b p)
  have around : ∀ {text}, lexis.Spells text [] →
      Plain lexis.Spells ["background(" ++ text ++ ")"] :=
    fun spells => List.forall_mem_singleton.mpr
      (.before (.after (within_chars rfl) spells) (within_chars rfl))
  unfold background
  split
  · exact plain_nil
  · rename_i single fills
    rw [fills] at layer
    exact around (layer single List.mem_cons_self 0)
  · have stacked : (View.group "ZStack" (b.style.fills.map (fillLayer b))).Holds [] :=
      holds_group (within_chars rfl) (.none (List.forall_mem_map.mpr layer))
    exact around (stacked.renders_bare rfl 0)

theorem plain_stroke (named : b.Named) : Plain lexis.Spells (stroke b) := by
  unfold stroke
  split
  · rename_i s text _ painted
    have paint : Within isCodeChar text := by
      obtain ⟨fill, top, made⟩ := Option.bind_eq_some_iff.mp painted
      have named := named.lastStroke top
      cases fill with
      | solid c =>
          cases made
          exact within_color named.color
      | linearGradient angle stops =>
          cases made
          exact within_linearGradient named.stops
      | image => cases made
    dsimp only
    split
    all_goals
      refine plain_code ?_
      simp only [within_append, paint, within_shape, within_plain, and_true, true_and]
      and_intros <;> exact within_chars rfl
  · exact plain_nil

theorem plain_effects (named : b.Named) : Plain lexis.Spells (b.style.effects.flatMap effect) := by
  refine List.forall_mem_flatMap.mpr fun e member => ?_
  cases e with
  | dropShadow s =>
      refine plain_code ?_
      simp only [within_append, within_color (named.effect member rfl), within_plain, and_true]
      and_intros <;> exact within_chars rfl
  | layerBlur radius =>
      refine plain_code ?_
      simp only [within_append, within_plain, and_true]
      and_intros <;> exact within_chars rfl
  | innerShadow | backgroundBlur => exact plain_nil

theorem plain_placement (p : Design.Placement) : Plain lexis.Spells (placement p) := by
  cases p with
  | absolute left top =>
      refine plain_code ?_
      simp only [within_append, within_plain, and_true]
      and_intros <;> exact within_chars rfl
  | root | flow => exact plain_nil

/-- The modifiers of a node have no words, whatever it is. -/
theorem plain_modifiers (named : n.box.Named) : Plain lexis.Spells (Swift.modifiers n) := by
  have outline : Plain lexis.Spells (if n.box.kind.isLine then [] else stroke n.box) := by
    split
    · exact plain_nil
    · exact plain_stroke named
  have opacity : Within isCodeChar ("opacity(" ++ plain n.box.style.opacity ++ ")") := by
    simp only [within_append, within_plain, and_true]
    and_intros <;> exact within_chars rfl
  have rotation : Within isCodeChar ("rotationEffect(.degrees(" ++
      plain (-n.box.geometry.rotation) ++ "), anchor: .topLeading)") := by
    simp only [within_append, within_plain, and_true]
    and_intros <;> exact within_chars rfl
  refine .append (.append (.append (.append ?_ (plain_effects named))
    (plain_ite (plain_code opacity))) (plain_ite (plain_code rotation))) (plain_placement _)
  refine .append (.append (.append (.append ?inset (plain_frame n))
    (plain_ite (plain_background named))) outline) (plain_ite (plain_clipShape n.box))
  case inset =>
    split
    · exact plain_padding _
    · exact plain_nil

/-! ## Nodes -/

theorem labelWords_commentOf (names : Bool) (b : Box) :
    labelWords (commentOf names b) =
      if names then b.name.toList.map Design.nameWord else [] := by
  unfold labelWords commentOf
  cases names with
  | false => rfl
  | true => cases b.name <;> rfl

theorem oneLine_commentOf (names : Bool) (b : Box) :
    ∀ label, commentOf names b = some label → Text.OneLine label := by
  intro label present
  unfold commentOf at present
  split at present
  · obtain ⟨name, -, rfl⟩ := Option.map_eq_some_iff.mp present
    exact Design.oneLine_substitute_blank name
  · cases present

/-- The view of a node has the words of all nodes below it, lined up. -/
theorem renders_view (names : Bool) (forest : List Node) :
    (∀ n ∈ Node.preorderList forest, n.WellFormed ∧ n.box.Named) →
      ∀ n ∈ forest, Renders (view names n) (n.wording names) := by
  induction forest using Node.forestInduction with
  | nil => exact fun _ n member => nomatch member
  | cons box children rest below after =>
      intro formed n member
      obtain ⟨own, inner, others⟩ := Node.forall_preorderList_mk_cons.mp formed
      rcases List.mem_cons.mp member with rfl | later
      · obtain ⟨wellFormed, named⟩ := own
        have base := @holds_base _ (view names) (Node.wording names) named
          (fun leaf => wellFormed.kept.leaf (.inr (.inr leaf))) (below inner)
        have whole := (base.modified_plain (plain_modifiers named)).commented (commentOf names box)
        rw [view, childViews_eq_map, Node.wording_eq, Box.wording, ← labelWords_commentOf,
          List.append_assoc]
        exact whole.renders (oneLine_commentOf names box)
      · exact after others n later

/-! ## Codes -/

section

variable {s t : Settings} {host : Option Scene.Node} {roots : List Scene.Node}
  {forest : List Node}

theorem renders_ofBuild (built : Design.build s host roots = .ok forest) (names : Bool) :
    ∀ n ∈ forest, Renders (view names n) (n.wording names) := by
  refine renders_view names forest fun m among => ?_
  exact ⟨Design.wellFormed_of_mem_build built among, Design.named_of_build built m among⟩

theorem spells_snippet (built : Design.build s host roots = .ok forest) :
    lexis.Spells (snippet t forest)
      (Design.wordingOf t.showLayerNames (Node.arrangedAll forest)) := by
  have each := InTurn.flatMap (renders_ofBuild built t.showLayerNames)
  rw [Design.wordingOf_arrangedAll]
  unfold snippet forestView
  split
  · rename_i only single
    rw [single] at each
    exact each.own 0
  · exact (holds_group (within_chars rfl) each).renders_bare rfl 0

theorem within_viewName (built : Design.build s host roots = .ok forest) :
    ∀ name ∈ Design.typeNames forest, Within isCodeChar (viewName name) := by
  intro name member
  exact within_append.mpr
    ⟨Text.within_of_isPlain (Design.isPlain_of_mem_typeNames built member), within_chars rfl⟩

/-- The view type of a root has the words of its view, unless a line of it loses its end. -/
theorem spells_viewStruct {name body : String} (code : Within isCodeChar (viewName name))
    (spells : lexis.Spells body words) (comments : UnbrokenComments words) :
    lexis.Spells (viewStruct name body) words := by
  have foot : "\n    \x7d\n\x7d\n\n" = "\n" ++ "    \x7d\n\x7d\n\n" := by decide
  have head : Within isCodeChar ("struct " ++ viewName name ++
      ": View \x7b\n    var body: some View \x7b\n") :=
    within_append.mpr ⟨within_append.mpr ⟨within_chars rfl, code⟩, within_chars rfl⟩
  have inside := (Spells.indent spells comments 8).before
    (within_chars rfl : Within isCodeChar "    \x7d\n\x7d\n\n")
  have whole := Spells.after head inside
  rw [← String.append_assoc, ← String.append_assoc] at whole
  rw [viewStruct, foot, ← String.append_assoc]
  exact whole

theorem within_contentHead : Within isCodeChar contentHead := by
  unfold contentHead
  rw [within_append]
  and_intros <;> exact within_chars rfl

theorem within_appFoot : Within isCodeChar appFoot := by
  unfold appFoot
  rw [within_append, within_append, within_append, within_append]
  and_intros <;> exact within_chars rfl

/-- The code of an application has the words of its roots as long as no comment has a carriage
return. -/
theorem spells_app (built : Design.build s host roots = .ok forest)
    (comments : UnbrokenComments
      (Design.wordingOf t.showLayerNames (Node.arrangedAll forest))) :
    lexis.Spells (app t forest)
      (Design.wordingOf t.showLayerNames (Node.arrangedAll forest)) := by
  have names := within_viewName built
  rw [Design.wordingOf_arrangedAll] at comments ⊢
  have bodies := InTurn.flatMap (P := fun body own => lexis.Spells body own ∧ UnbrokenComments own)
    (g := fun n => (view t.showLayerNames n).render 0) fun n member =>
      ⟨renders_ofBuild built t.showLayerNames n member 0, fun text among =>
        comments text (List.mem_flatMap.mpr ⟨n, member, among⟩)⟩
  have length : (Design.typeNames forest).length =
      (forest.map fun n => (view t.showLayerNames n).render 0).length := by
    rw [Design.length_typeNames, List.length_map]
  have structs := bodies.zipWith (Q := lexis.Spells) (f := viewStruct) length
    fun name member _ _ own => spells_viewStruct (names name member) own.1 own.2
  have uses : InTurn lexis.Spells ((Design.typeNames forest).map useLine) [] := by
    refine .none (List.forall_mem_map.mpr fun name member => .code ?_)
    exact within_append.mpr
      ⟨within_append.mpr ⟨within_chars rfl, names name member⟩, within_chars rfl⟩
  have front := Spells.before (.after (within_chars rfl : Within isCodeChar "import SwiftUI\n\n")
    (.join structs)) within_contentHead
  have whole := (Spells.append front (.join uses)).before within_appFoot
  rwa [List.append_nil] at whole

theorem spells_code (built : Design.build s host roots = .ok forest)
    (comments : UnbrokenComments
      (Design.wordingOf t.showLayerNames (Node.arrangedAll forest))) :
    lexis.Spells (code t forest) (Design.wordingOf t.showLayerNames (Node.arrangedAll forest)) := by
  unfold code
  split
  · exact spells_snippet built
  · exact spells_app built comments

end

/-- The definitions of text styles have the families as their words. -/
theorem spells_textStyles (forest : List Node) :
    lexis.Spells (textStyles (Design.TextGroup.ofForest forest))
      (Design.familiesOf (Design.TextGroup.ofForest forest)) := by
  rw [Design.familiesOf, List.map_eq_flatMap]
  refine .intercalate (within_chars rfl) (.flatMap fun g member => ?_)
  have name : Within isCodeChar (Text.pascal g.name) := Text.within_of_isPlain
    (Text.isPlain_of_mem_pascal (Design.TextGroup.isSnake_name member).isPiece_of_mem_words)
  have head : Within isCodeChar ("struct " ++ Text.pascal g.name ++ ": ViewModifier \x7b\n" ++
      "    func body(content: Content) -> some View \x7b\n") := by
    simp only [within_append, name, and_true]
    and_intros <;> exact within_chars rfl
  have content := (holds_leaf (.code (within_chars rfl : Within isCodeChar "content"))).modified
    (inTurn_typography g.typography)
  exact .before (.after head (content.renders_bare rfl 8)) (within_chars rfl)

end Handoff.Swift
