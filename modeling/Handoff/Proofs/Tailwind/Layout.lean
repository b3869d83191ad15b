import Handoff.Proofs.Design.LayoutFacts
import Handoff.Proofs.Tailwind.Names
import Handoff.Proofs.Text.Alphabet
import Handoff.Tailwind.Code

/-!
Layout read off class names.

`layoutFacts` reads the names of classes and keeps what they say of the layout of a box.  The
classes of a node in a design say what the design says (`layoutFacts_names`), where a length of
less than a hundredth of a pixel counts as zero.  No color of text may be called as an alignment of
text is (`Unaligned`); those of a palette are not.

A query is answered by one aspect of the node, that whose table it is not apart from
(`read?_of_aspect`).
-/

namespace Handoff.Tailwind

open Design (Node Direction LayoutFacts FlexFacts Sides SizeCase Positioning Aspect)

/-! ## Reading -/

/-- The first answer of a list of names. -/
def read? (q : Query) (written : List String) : Option String :=
  written.findSome? q.read?

/-- Whether a class is there. -/
def holds (name : String) (written : List String) : Bool :=
  (read? (.word name) written).isSome

/-- The positioning that the classes give. -/
def positioning (written : List String) : Positioning :=
  if holds "absolute" written then
    .offset (read? (.after "left") written).isSome (read? (.after "top") written).isSome
  else if holds "relative" written then .context
  else .static

/-- What the word for a distribution says. -/
def readJustify (word : Option String) : Design.Distribution :=
  if word = some "center" then .center
  else if word = some "end" then .finish
  else if word = some "between" then .spaceBetween
  else .start

/-- What the word for an alignment says. -/
def readItems (word : String) : Design.Alignment :=
  if word = "center" then .center
  else if word = "end" then .finish
  else if word = "baseline" then .baseline
  else .start

/-- The flex container that the classes make. -/
def flexFacts? (written : List String) : Option FlexFacts :=
  if holds "flex" written then
    some {
      direction := if holds "flex-col" written then .vertical else .horizontal
      distribution := readJustify (read? (.after "justify") written)
      alignment := (read? (.after "items") written).map readItems
      gap := (read? (.after "gap") written).map (· != "0")
      wraps := holds "flex-wrap" written }
  else none

/-- Whether one of some classes of padding is there and not zero, by the answers to queries. -/
def pads (answer : Query → Option String) (stems : List String) : Bool :=
  stems.any fun stem => (answer (.after stem)).any (· != "0")

/-- The sides that are padded, by the answers to queries. -/
def sides (answer : Query → Option String) : Sides where
  top := pads answer ["p", "py", "pt"]
  right := pads answer ["p", "px", "pr"]
  bottom := pads answer ["p", "py", "pb"]
  left := pads answer ["p", "px", "pl"]

/-- The alignment of text that the classes give. -/
def textAlignOf (written : List String) : Design.TextAlign :=
  if holds "text-center" written then .center
  else if holds "text-right" written then .right
  else if holds "text-justify" written then .justified
  else .left

/-- The size case that the classes give an axis, in a flow along `around`. -/
def sizeCase (around : Option Direction) (written : List String) (axis : Direction) : SizeCase :=
  .read (read? (.after (sizeStem axis)) written) "full" (around = some axis)
    (holds "flex-1" written) (holds "self-stretch" written)

/-- The degrees that the classes turn a box by, clockwise. -/
def turn? (written : List String) : Option String :=
  match read? (.after "-rotate") written with
  | some degrees => some (if degrees = "0" then "0" else "-" ++ degrees)
  | none => (read? (.after "rotate") written).map fun word =>
    (Text.between? "[" "deg]" word).getD word

/-- What names of classes say of the layout of a box in a flow along `around`. -/
def layoutFacts (around : Option Direction) (written : List String) : LayoutFacts where
  positioning := positioning written
  flex := flexFacts? written
  padding := sides (read? · written)
  width := sizeCase around written .horizontal
  height := sizeCase around written .vertical
  rigid := holds "shrink-0" written
  textAlign := textAlignOf written
  unbroken := holds "whitespace-nowrap" written
  clips := holds "overflow-hidden" written
  rotation := turn? written
  aboutCorner := holds "origin-top-left" written

/-! ## Which aspect answers -/

/-- The classes of the flow of a node, if there is one. -/
def flowOf (rounding : Bool) (n : Node) : List Utility :=
  match n.box.layout.mode with
  | .flow f => flow rounding f
  | .absolute => []

/-- The classes of an aspect of a node inside its parent. -/
def aspect (rounding : Bool) (parent : Option Node) (n : Node) : Aspect → List Utility
  | .placement => placement rounding n
  | .flow => flowOf rounding n
  | .size => size rounding parent n .horizontal ++ size rounding parent n .vertical
  | .text => match n.box.style.text with
    | some t => text rounding n t
    | none => []
  | .paint => match n.box.style.text with
    | some _ => []
    | none => content rounding n
  | .corners => corners rounding n
  | .effects => effects rounding n
  | .finish => finish n

/-- The names of an aspect. -/
def aspectNames : Aspect → List Query
  | .placement => placementNames
  | .flow => flowNames
  | .size => sizeNames .horizontal ++ sizeNames .vertical
  | .text => letterNames ++ textBoxNames ++ [Query.word "whitespace-nowrap"]
  | .paint => paintNames
  | .corners | .effects => effectNames
  | .finish => finishNames

section

variable {rounding : Bool} {parent : Option Node} {n : Node} {q : Query} {a : Aspect}

theorem aspect_text {t : Design.TextStyle} (present : n.box.style.text = some t) :
    aspect rounding parent n .text = text rounding n t := by
  rw [aspect, present]

theorem aspect_text_none (plain : n.box.style.text = none) :
    aspect rounding parent n .text = [] := by
  rw [aspect, plain]

theorem spelled_text (rounding : Bool) (n : Node) (t : Design.TextStyle) :
    Spelled (aspectNames .text) (text rounding n t) := by
  have letters : letterNames ⊆ aspectNames .text := by decide
  have box : textBoxNames ⊆ aspectNames .text := by decide
  have line : Listed (aspectNames .text) (.named "whitespace" "nowrap") :=
    listed_word (by decide)
  simp [text, (spelled_textPaint n.box.style.fills).mono letters,
    (spelled_typography rounding t.typography).mono letters,
    (spelled_textBox n t.typography).mono box, line]

theorem spelled_aspect (rounding : Bool) (parent : Option Node) (n : Node) (a : Aspect) :
    Spelled (aspectNames a) (aspect rounding parent n a) := by
  cases a with
  | placement => exact spelled_placement rounding n
  | flow =>
      rw [aspect, flowOf]
      split
      · exact spelled_flow rounding _
      · exact spelled_nil
  | size =>
      exact spelled_append.mpr
        ⟨(spelled_size rounding parent n .horizontal).mono (List.subset_append_left _ _),
          (spelled_size rounding parent n .vertical).mono (List.subset_append_right _ _)⟩
  | text =>
      rw [aspect]
      split
      · exact spelled_text rounding n _
      · exact spelled_nil
  | paint =>
      cases present : n.box.style.text with
      | none =>
          rw [aspect, present]
          exact spelled_content present rounding
      | some t =>
          rw [aspect, present]
          exact spelled_nil
  | corners => exact spelled_corners rounding n
  | effects => exact spelled_effects rounding n
  | finish => exact spelled_finish n

theorem classes_eq : classes rounding parent n =
    placement rounding n ++ flowOf rounding n ++ size rounding parent n .horizontal ++
      size rounding parent n .vertical ++ content rounding n ++ corners rounding n ++
      effects rounding n ++ finish n :=
  rfl

theorem classes_eq_aspects (rounding : Bool) (parent : Option Node) (n : Node) :
    classes rounding parent n = Aspect.all.flatMap (aspect rounding parent n) := by
  have filled : content rounding n =
      aspect rounding parent n .text ++ aspect rounding parent n .paint := by
    rw [aspect, aspect, content]
    cases present : n.box.style.text with
    | none => rfl
    | some t => exact (List.append_nil _).symm
  rw [classes_eq, filled]
  simp [Aspect.all, aspect]

/-- A query is answered by one aspect, if the others are apart from it or have no classes. -/
theorem read?_of_aspect (a : Aspect) (idle : List Aspect)
    (empty : ∀ b ∈ idle, aspect rounding parent n b = [])
    (apart : ∀ b ∈ Aspect.all, b ∉ a :: idle → ∀ p ∈ aspectNames b, q.apart p = true) :
    read? q (names (classes rounding parent n)) = ask? q (aspect rounding parent n a) := by
  have others : ∀ b, b ≠ a → ask? q (aspect rounding parent n b) = none := by
    intro b other
    by_cases still : b ∈ idle
    · rw [empty b still]
      rfl
    · refine (spelled_aspect rounding parent n b).ask? (apart b b.mem_all ?_)
      rw [List.mem_cons, not_or]
      exact ⟨other, still⟩
  have whole : read? q (names (classes rounding parent n)) =
      ask? q (classes rounding parent n) := by
    rw [read?, names, List.findSome?_map]
    rfl
  rw [whole, classes_eq_aspects]
  cases a <;> simp [Aspect.all, others]

/-! ## What the aspects say -/

theorem positioning_names : positioning (names (classes rounding parent n)) = n.positioning := by
  have table : ∀ q ∈ placementNames, ∀ b ∈ Aspect.all, b ∉ [.placement] →
      ∀ p ∈ aspectNames b, q.apart p = true := by decide
  have own : ∀ q ∈ placementNames, read? q (names (classes rounding parent n)) =
      ask? q (placement rounding n) := fun q member =>
    read?_of_aspect .placement [] nofun (table q member)
  rw [positioning, holds, holds, own _ (by decide), own _ (by decide), own _ (by decide),
    own _ (by decide), placement, Node.positioning]
  cases n.box.layout.placement with
  | absolute left top =>
      simp +decide [read?_bare, read?_after_spacing, read?_bare_of_apart, read?_spacing_of_apart]
  | root | flow =>
      cases n.hasAbsoluteChild <;> simp +decide [read?_bare, read?_bare_of_apart]

theorem clips_names :
    holds "overflow-hidden" (names (classes rounding parent n)) = n.box.style.clipsContent := by
  have faint (word : String) :
      (Query.word "overflow-hidden").read? (Utility.named "opacity" word).text = none :=
    read?_named_of_apart (by decide)
  have hidden : (Query.word "overflow-hidden").read? (Utility.named "overflow" "hidden").text =
      some "" := read?_word (by decide)
  have turned (degrees : Float) :
      (Query.word "overflow-hidden").read? (rotation degrees).text = none :=
    (listed_rotation degrees).read? (by decide)
  have corner : (Query.word "overflow-hidden").read? (Utility.named "origin" "top-left").text =
      none := read?_other_word (by decide)
  rw [holds, read?_of_aspect .finish [] nofun (by decide), aspect, finish]
  cases n.box.style.clipsContent <;> simp [ask?_ite, faint, hidden, turned, corner]

theorem aboutCorner_names : holds "origin-top-left" (names (classes rounding parent n)) =
    (n.box.geometry.rotation != 0.0) := by
  have faint (word : String) :
      (Query.word "origin-top-left").read? (Utility.named "opacity" word).text = none :=
    read?_named_of_apart (by decide)
  have hidden : (Query.word "origin-top-left").read? (Utility.named "overflow" "hidden").text =
      none := read?_other_word (by decide)
  have turned (degrees : Float) :
      (Query.word "origin-top-left").read? (rotation degrees).text = none :=
    (listed_rotation degrees).read? (by decide)
  have corner : (Query.word "origin-top-left").read? (Utility.named "origin" "top-left").text =
      some "" := read?_word (by decide)
  rw [holds, read?_of_aspect .finish [] nofun (by decide), aspect, finish]
  cases n.box.geometry.rotation != 0.0 <;> simp [ask?_ite, faint, hidden, turned, corner]

/-- What answers as the class of a rotation does turns by its degrees. -/
theorem turn?_eq_of_read? {written : List String} {degrees : Float}
    (back : read? (.after "-rotate") written =
      (Query.after "-rotate").read? (rotation degrees).text)
    (forth : read? (.after "rotate") written =
      (Query.after "rotate").read? (rotation degrees).text) :
    turn? written = some (Decimal.plain degrees) := by
  have opening : "[".toList = ['['] := by decide
  have unbracketed : Text.between? "[" "deg]" (Decimal.plain degrees.abs) = none :=
    Text.between?_eq_none opening ((Decimal.within_plain _).not_mem (by decide))
  rw [turn?, back, forth]
  rcases rotation_cases degrees with ⟨negative, word⟩ | ⟨positive, word⟩ | word
  · rw [word, read?_after_named, Decimal.plain_eq_abs degrees, if_pos negative]
  · rw [word, read?_named_of_apart (by decide), read?_after_named, Decimal.plain_eq_abs degrees,
      if_neg positive]
    simp only [Option.map_some, unbracketed, Option.getD_none]
  · rw [word, read?_named_of_apart (by decide), read?_after_named]
    simp only [Option.map_some, Text.between?_append, Option.getD_some]

theorem turn?_names : turn? (names (classes rounding parent n)) =
    if n.box.geometry.rotation != 0.0 then some (Decimal.plain (-n.box.geometry.rotation))
    else none := by
  have own : ∀ q ∈ [Query.after "rotate", .after "-rotate"],
      read? q (names (classes rounding parent n)) =
        if n.box.geometry.rotation != 0.0 then
          q.read? (rotation (-n.box.geometry.rotation)).text
        else none := by
    have table : ∀ q ∈ [Query.after "rotate", .after "-rotate"], (∀ b ∈ Aspect.all,
        b ∉ [.finish] → ∀ p ∈ aspectNames b, q.apart p = true) ∧ q.apart (.after "opacity") = true ∧
        q.apart (.after "overflow") = true ∧ q.apart (.after "origin") = true := by decide
    intro q member
    obtain ⟨apart, faded, clipped, pinned⟩ := table q member
    rw [read?_of_aspect .finish [] nofun apart, aspect, finish]
    simp [ask?_ite, read?_named_of_apart, faded, clipped, pinned]
  have back := own (.after "-rotate") (by decide)
  have forth := own (.after "rotate") (by decide)
  split
  · rename_i turned
    rw [if_pos turned] at back forth
    exact turn?_eq_of_read? back forth
  · rename_i straight
    rw [if_neg straight] at back forth
    rw [turn?, back, forth]
    rfl

/-! ### Lines of text -/

theorem unbroken_names : holds "whitespace-nowrap" (names (classes rounding parent n)) =
    (n.box.style.text.isSome && n.box.layout.sizing.horizontal.isHug) := by
  rw [holds, read?_of_aspect .text [] nofun (by decide)]
  cases present : n.box.style.text with
  | none =>
      rw [aspect_text_none present]
      rfl
  | some t =>
      rw [aspect_text present, text, ask?_append, ask?_append, ask?_append,
        (spelled_textPaint _).ask? (by decide), (spelled_typography rounding _).ask? (by decide),
        (spelled_textBox n _).ask? (by decide)]
      have nowrap : (Query.word "whitespace-nowrap").read?
          (Utility.named "whitespace" "nowrap").text = some "" := read?_word (by decide)
      cases n.box.layout.sizing.horizontal.isHug <;> simp [nowrap]

/-- The words for alignments of text. -/
def alignWords : List String := ["center", "right", "justify"]

/-- A color is not called as an alignment of text is. -/
def Unaligned (c : Design.ColorRef) : Prop :=
  ∀ m, c.palette = some m → m.name ∉ alignWords

/-- A color is called by its palette name, or it has digits in brackets or an opacity. -/
theorem color_cases (c : Design.ColorRef) : (∃ m, c.palette = some m ∧ color c = m.name) ∨
    '[' ∈ (color c).toList ∨ '/' ∈ (color c).toList := by
  unfold color
  dsimp only
  by_cases covers : c.color.isOpaque = true
  · rw [if_pos covers]
    cases c.palette with
    | some m => exact .inl ⟨m, rfl, rfl⟩
    | none => exact .inr (.inl (by simp))
  · rw [if_neg covers]
    exact .inr (.inr (by simp))

theorem color_not_mem {c : Design.ColorRef} (unaligned : Unaligned c) : color c ∉ alignWords := by
  have letters : ∀ word ∈ alignWords, '[' ∉ word.toList ∧ '/' ∉ word.toList := by decide
  intro member
  obtain ⟨bracket, slash⟩ := letters _ member
  rcases color_cases c with ⟨m, named, called⟩ | digits | faded
  · exact unaligned m named (called ▸ member)
  · exact bracket digits
  · exact slash faded

/-- What only an alignment of text is called. -/
def alignNames : List String := ["text-center", "text-right", "text-justify"]

theorem exists_alignWord : ∀ w ∈ alignNames, ∃ word ∈ alignWords, w = "text" ++ "-" ++ word := by
  decide

theorem text_named_ne {w word : String} (aligned : w ∈ alignNames) (other : word ∉ alignWords) :
    (Query.word w).read? (Utility.named "text" word).text = none := by
  obtain ⟨own, member, rfl⟩ := exists_alignWord w aligned
  refine read?_other_word fun same => other ?_
  rwa [(String.append_right_inj _).mp same]

theorem ask?_textPaint {w : String} (aligned : w ∈ alignNames) {fills : List Design.Paint}
    (unaligned : ∀ c, fills.getLast?.map Design.Paint.fill = some (.solid c) → Unaligned c) :
    ask? (.word w) (textPaint fills) = none := by
  have clear : "transparent" ∉ alignWords := by decide
  have apart : ∀ w ∈ alignNames, (∀ p ∈ gradientNames, (Query.word w).apart p = true) ∧
      (Query.word w).apart (.after "bg") = true := by decide
  unfold textPaint
  split
  · rename_i c solid
    rw [ask?_cons, text_named_ne aligned (color_not_mem (unaligned c solid))]
    rfl
  · rw [ask?_append, (spelled_gradient _ _).ask? (apart w aligned).1, ask?_cons,
      read?_named_of_apart (apart w aligned).2, ask?_cons, text_named_ne aligned clear]
    rfl
  all_goals rfl

/-- The size of a font is not called as an alignment. -/
theorem read?_fontSize {w : String} (aligned : w ∈ alignNames) (rounding : Bool) (v : Float) :
    (Query.word w).read? (Utility.text ⟨"text", scaled rounding fontSizeScale v⟩) = none := by
  have steps : ∀ suffix ∈ fontSizeScale.map Step.suffix, suffix ≠ "" ∧ suffix ∉ alignWords := by
    decide
  have letters : ∀ word ∈ alignWords, '[' ∉ word.toList := by decide
  rcases scaled_cases rounding fontSizeScale v with ⟨step, member, chosen, -⟩ | chosen
  · obtain ⟨named, other⟩ := steps _ (List.mem_map_of_mem member)
    rw [chosen, Step.toSuffix, if_neg named]
    exact text_named_ne aligned other
  · rw [chosen, text_length]
    exact text_named_ne aligned fun member => bracketed_ne (letters _ member) rfl

/-- A typography is aligned by the class of its alignment alone. -/
theorem ask?_typography {w : String} (aligned : w ∈ alignNames) (rounding : Bool)
    (t : Design.Typography) :
    ask? (.word w) (typography rounding t) = ask? (.word w) (textAlign t.align) := by
  have apart : ∀ w ∈ alignNames, ∀ p ∈ [Query.after "font", .word "italic", .after "leading",
      .after "tracking", .word "uppercase", .word "lowercase", .word "capitalize",
      .word "underline", .after "line"], (Query.word w).apart p = true := by decide
  have others := apart w aligned
  simp only [List.forall_mem_cons] at others
  obtain ⟨font, italic, leading, tracking, upper, lower, title, under, through, -⟩ := others
  have height : ask? (.word w)
      (t.lineHeight.toList.map fun h => .named "leading" (Tailwind.leading h)) = none := by
    cases t.lineHeight <;> simp [read?_named_of_apart leading]
  have cased : ask? (.word w) (textCase t.textCase) = none := by
    cases t.textCase <;> simp [textCase, read?_bare_of_apart, upper, lower, title]
  have decorated : ask? (.word w) (decoration t.decoration) = none := by
    cases t.decoration <;>
      simp [decoration, read?_bare_of_apart under, read?_named_of_apart through]
  simp [typography, ask?_ite, read?_named_of_apart, read?_bare_of_apart, font, italic, tracking,
    read?_fontSize aligned, height, cased, decorated]

theorem textAlign_names
    (unaligned : ∀ c, n.box.style.fills.getLast?.map Design.Paint.fill = some (.solid c) →
      Unaligned c) :
    textAlignOf (names (classes rounding parent n)) =
      (n.box.style.text.map (·.typography.align)).getD .left := by
  have table : ∀ w ∈ alignNames, (∀ b ∈ Aspect.all, b ∉ [.text] → ∀ p ∈ aspectNames b,
      (Query.word w).apart p = true) ∧ (∀ p ∈ textBoxNames, (Query.word w).apart p = true) ∧
      (Query.word w).apart (.after "whitespace") = true := by decide
  have own : ∀ w ∈ alignNames, read? (.word w) (names (classes rounding parent n)) =
      n.box.style.text.bind fun t => ask? (.word w) (textAlign t.typography.align) := by
    intro w aligned
    obtain ⟨apart, box, line⟩ := table w aligned
    rw [read?_of_aspect .text [] nofun apart]
    cases present : n.box.style.text with
    | none =>
        rw [aspect_text_none present]
        rfl
    | some t =>
        rw [aspect_text present, text, ask?_append, ask?_append, ask?_append,
          ask?_textPaint aligned unaligned, ask?_typography aligned,
          (spelled_textBox n _).ask? box, ask?_ite, ask?_cons, read?_named_of_apart line]
        simp
  rw [textAlignOf, holds, holds, holds, own _ (by decide), own _ (by decide), own _ (by decide)]
  cases n.box.style.text with
  | none => rfl
  | some t =>
      have back : ∀ align, (if (ask? (.word "text-center") (textAlign align)).isSome then .center
          else if (ask? (.word "text-right") (textAlign align)).isSome then .right
          else if (ask? (.word "text-justify") (textAlign align)).isSome then .justified
          else .left) = align := by
        intro align
        cases align <;> decide
      exact back t.typography.align

/-! ### Sizes -/

theorem ask?_sizeStem (axis : Direction) :
    ask? (.after (sizeStem axis)) (size rounding parent n axis) =
      n.sizeText? axis (fun v => distanceWord rounding (Css.fixedSize n axis v)) "full" := by
  have shrink : (Query.after (sizeStem axis)).apart (.after "shrink") = true := by
    cases axis <;> decide
  have flex : (Query.after (sizeStem axis)).apart (.after "flex") = true := by
    cases axis <;> decide
  have self : (Query.after (sizeStem axis)).apart (.after "self") = true := by
    cases axis <;> decide
  unfold size Node.sizeText?
  cases n.box.layout.sizing.along axis with
  | fixed v => simp [ask?_ite, read?_after_spacing, read?_named_of_apart shrink]
  | hug => rfl
  | fill =>
      cases n.box.layout.placement <;>
        simp [ask?_ite, read?_after_named, read?_named_of_apart flex, read?_named_of_apart self]

/-- The sizes are written each for its own axis. -/
theorem read?_sizeStem (axis : Direction) :
    read? (.after (sizeStem axis)) (names (classes rounding parent n)) =
      ask? (.after (sizeStem axis)) (size rounding parent n axis) := by
  rw [read?_of_aspect .size [] nofun (by cases axis <;> decide), aspect, ask?_append]
  cases axis with
  | horizontal =>
      rw [(spelled_size rounding parent n .vertical).ask? (by decide)]
      exact Option.or_none
  | vertical =>
      rw [(spelled_size rounding parent n .horizontal).ask? (by decide)]
      rfl

theorem ask?_flexOne (axis : Direction) :
    ask? (.word "flex-1") (size rounding parent n axis) =
      if Css.flowAround? parent n = some axis ∧
          (n.box.layout.sizing.along axis).isFill = true then
        some ""
      else none := by
  have own : (Query.word "flex-1").apart (.after (sizeStem axis)) = true := by
    cases axis <;> decide
  unfold size
  cases n.box.layout.sizing.along axis with
  | fixed v =>
      simp +decide [ask?_ite, read?_spacing_of_apart own, read?_named_of_apart,
        Design.Extent.isFill]
  | hug => simp [Design.Extent.isFill]
  | fill =>
      cases placed : n.box.layout.placement with
      | root => simp [read?_named_of_apart own, Design.flowAround?_root placed]
      | flow | absolute left top =>
          simp +decide [ask?_ite, read?_word, read?_named_of_apart]

theorem ask?_selfStretch (laid : n.LaidOut parent) (axis : Direction) :
    ask? (.word "self-stretch") (size rounding parent n axis) =
      if (Css.flowAround? parent n).any (· != axis) = true ∧
          (n.box.layout.sizing.along axis).isFill = true then
        some ""
      else none := by
  have own : (Query.word "self-stretch").apart (.after (sizeStem axis)) = true := by
    cases axis <;> decide
  have known := laid.fill axis
  unfold size
  cases extent : n.box.layout.sizing.along axis with
  | fixed v =>
      simp +decide [ask?_ite, read?_spacing_of_apart own, read?_named_of_apart,
        Design.Extent.isFill]
  | hug => simp [Design.Extent.isFill]
  | fill =>
      cases placed : n.box.layout.placement with
      | root => simp [read?_named_of_apart own, Design.flowAround?_root placed]
      | flow | absolute left top =>
          rw [extent, placed] at known
          cases around : Css.flowAround? parent n with
          | none => simp [around] at known
          | some d =>
              by_cases same : d = axis <;>
                simp +decide [same, read?_word, read?_named_of_apart]

theorem ask?_shrink (axis : Direction) :
    ask? (.word "shrink-0") (size rounding parent n axis) =
      if Css.flowAround? parent n = some axis ∧
          (n.box.layout.sizing.along axis).fixed?.isSome = true then
        some ""
      else none := by
  have own : (Query.word "shrink-0").apart (.after (sizeStem axis)) = true := by
    cases axis <;> decide
  unfold size
  cases n.box.layout.sizing.along axis with
  | fixed v =>
      simp +decide [ask?_ite, read?_spacing_of_apart own, read?_word, Design.Extent.fixed?]
  | hug => simp [Design.Extent.fixed?]
  | fill =>
      cases n.box.layout.placement <;> simp +decide [ask?_ite, read?_named_of_apart, own]

theorem grows_names : holds "flex-1" (names (classes rounding parent n)) = n.grows parent := by
  rw [holds, read?_of_aspect .size [] nofun (by decide), aspect, ask?_append, ask?_flexOne,
    ask?_flexOne, Node.grows, Bool.eq_iff_iff]
  cases Css.flowAround? parent n with
  | none => simp
  | some d => cases d <;> simp

theorem stretches_names (laid : n.LaidOut parent) :
    holds "self-stretch" (names (classes rounding parent n)) = n.stretches parent := by
  rw [holds, read?_of_aspect .size [] nofun (by decide), aspect, ask?_append,
    ask?_selfStretch laid, ask?_selfStretch laid, Node.stretches, Bool.eq_iff_iff]
  cases Css.flowAround? parent n with
  | none => simp
  | some d => cases d <;> simp [Design.Sizing.along, Design.Sizing.across]

theorem rigid_names : holds "shrink-0" (names (classes rounding parent n)) =
    (Css.flowAround? parent n).any fun axis =>
      (n.box.layout.sizing.along axis).fixed?.isSome := by
  rw [holds, read?_of_aspect .size [] nofun (by decide), aspect, ask?_append, ask?_shrink,
    ask?_shrink, Bool.eq_iff_iff]
  cases Css.flowAround? parent n with
  | none => simp
  | some d => cases d <;> simp

theorem sizeCase_names (laid : n.LaidOut parent) (axis : Direction) :
    sizeCase (Css.flowAround? parent n) (names (classes rounding parent n)) axis =
      n.sizeCase parent axis := by
  rw [sizeCase, read?_sizeStem, ask?_sizeStem, grows_names, stretches_names laid]
  exact laid.read_sizeText? axis fun v => distanceWord_ne_full rounding _

/-! ### Flows -/

/-- A node without text has the classes of a flex container from its flow. -/
theorem read?_of_flow (plain : n.box.style.text = none) (own : q ∈ flowNames) :
    read? q (names (classes rounding parent n)) = ask? q (flowOf rounding n) := by
  have apart : ∀ q ∈ flowNames, ∀ b ∈ Aspect.all, b ∉ [.flow, .text] →
      ∀ p ∈ aspectNames b, q.apart p = true := by decide
  refine read?_of_aspect .flow [.text] ?_ (apart q own)
  exact List.forall_mem_singleton.mpr (aspect_text_none plain)

/-- A text has the classes of a flex container from its box. -/
theorem read?_of_textBox (laid : n.LaidOut parent) {t : Design.TextStyle}
    (present : n.box.style.text = some t) (own : q ∈ flowNames) :
    read? q (names (classes rounding parent n)) = ask? q (textBox n t.typography) := by
  have tables : ∀ q ∈ flowNames, (∀ b ∈ Aspect.all, b ∉ [.text, .flow] →
      ∀ p ∈ aspectNames b, q.apart p = true) ∧ (∀ p ∈ letterNames, q.apart p = true) ∧
      q.apart (.after "whitespace") = true := by decide
  obtain ⟨apart, letters, line⟩ := tables q own
  have unflowed : aspect rounding parent n .flow = [] := by
    rw [aspect, flowOf, laid.text (by rw [present]; rfl)]
  rw [read?_of_aspect .text [.flow] (List.forall_mem_singleton.mpr unflowed) apart,
    aspect_text present, text, ask?_append, ask?_append, ask?_append,
    (spelled_textPaint _).ask? letters, (spelled_typography rounding _).ask? letters,
    ask?_ite, ask?_cons, read?_named_of_apart line]
  simp

theorem textBox_cases (n : Node) (t : Design.Typography) :
    (n.textFlex? t = none ∧ textBox n t = []) ∨
      ∃ d, n.textFlex? t = some (Design.pushedDown d) ∧
        textBox n t = [.bare "flex", .named "flex" "col", .named "justify" (justify d)] := by
  unfold Node.textFlex? textBox
  cases n.box.layout.sizing.vertical.fixed? with
  | none => cases t.alignVertical <;> exact .inl ⟨rfl, rfl⟩
  | some v =>
      cases t.alignVertical with
      | top => exact .inl ⟨rfl, rfl⟩
      | center => exact .inr ⟨.center, rfl, rfl⟩
      | bottom => exact .inr ⟨.finish, rfl, rfl⟩

theorem readJustify_justify (d : Design.Distribution) : readJustify (some (justify d)) = d := by
  cases d <;> decide

theorem readItems_items (a : Design.Alignment) : readItems (items a) = a := by
  cases a <;> decide

/-- A length that is not negative is written as zero if it is less than a hundredth. -/
theorem distanceWord_ne_zero (rounding : Bool) {v : Float} (known : v = 0.0 ∨ 0.0 < v) :
    (distanceWord rounding v != "0") = decide (0.01 ≤ v) := by
  rw [Bool.eq_iff_iff, bne_iff_ne, Ne, decide_eq_true_eq]
  rcases known with rfl | positive
  · refine iff_of_false (fun other => other ?_) Decimal.not_hundredth_le_zero
    cases rounding <;> decide +kernel
  · rw [distanceWord_eq_zero_iff rounding positive, Decidable.not_not]

/-- What the classes of a flow are, asked one by one. -/
theorem ask?_flow (rounding : Bool) (f : Design.Flow) :
    ask? (.word "flex") (flow rounding f) = some "" ∧
    ask? (.word "flex-col") (flow rounding f) =
      (if f.direction = .vertical then some "" else none) ∧
    ask? (.after "justify") (flow rounding f) = some (justify f.distribution) ∧
    ask? (.after "items") (flow rounding f) = some (items f.alignment) ∧
    ask? (.after "gap") (flow rounding f) =
      (if f.gap > 0.0 then some (distanceWord rounding f.gap) else none) ∧
    ask? (.word "flex-wrap") (flow rounding f) = if f.wraps then some "" else none := by
  have padded : ∀ q ∈ [Query.word "flex-col", .after "justify", .after "items", .after "gap",
      .word "flex-wrap"], ask? q (padding rounding f.padding) = none := by
    have apart : ∀ q ∈ [Query.word "flex-col", .after "justify", .after "items", .after "gap",
        .word "flex-wrap"], ∀ p ∈ paddingNames, q.apart p = true := by decide
    exact fun q member => (spelled_padding rounding f.padding).ask? (apart q member)
  simp only [List.forall_mem_cons] at padded
  obtain ⟨column, justified, aligned, gap, wraps, -⟩ := padded
  simp +decide [flow, ask?_ite, read?_bare, read?_bare_of_apart, read?_word, read?_other_word,
    read?_named_of_apart, read?_after_named, ask?_positive, ask?_positive_of_apart, column,
    justified, aligned, gap, wraps]

theorem flexFacts?_names (laid : n.LaidOut parent) :
    flexFacts? (names (classes rounding parent n)) = n.flexFacts? 0.01 := by
  unfold flexFacts? Node.flexFacts? holds
  cases present : n.box.style.text with
  | some t =>
      have box : ∀ {q}, q ∈ flowNames → read? q (names (classes rounding parent n)) =
          ask? q (textBox n t.typography) := read?_of_textBox laid present
      rw [box (by decide), box (by decide), box (by decide), box (by decide), box (by decide),
        box (by decide), laid.text (by rw [present]; rfl)]
      simp only [Option.bind_some]
      rcases textBox_cases n t.typography with ⟨said, written⟩ | ⟨d, said, written⟩
      · rw [said, written]
        rfl
      · rw [said, written]
        simp +decide [read?_bare, read?_bare_of_apart, read?_word, read?_other_word,
          read?_named_of_apart, read?_after_named, readJustify_justify, Design.pushedDown]
  | none =>
      have own : ∀ {q}, q ∈ flowNames → read? q (names (classes rounding parent n)) =
          ask? q (flowOf rounding n) := read?_of_flow present
      rw [own (by decide), own (by decide), own (by decide), own (by decide), own (by decide),
        own (by decide), flowOf]
      cases mode : n.box.layout.mode with
      | absolute => rfl
      | flow f =>
          obtain ⟨flex, column, distribution, alignment, gap, wraps⟩ := ask?_flow rounding f
          have least := distanceWord_ne_zero rounding (laid.lengths f mode f.gap List.mem_cons_self)
          simp only [flex, column, distribution, alignment, gap, wraps, Option.isSome_some, if_true,
            readJustify_justify, Design.Flow.flexFacts, Option.map_some, readItems_items]
          congr 2
          · cases f.direction <;> decide
          · split
            · rw [Option.map_some, least]
            · rfl
          · cases f.wraps <;> decide

/-! ### Paddings -/

/-- The sides depend on what is answered to queries for paddings. -/
theorem sides_congr {f g : Query → Option String} (same : ∀ q ∈ paddingNames, f q = g q) :
    sides f = sides g := by
  simp +decide [sides, pads, same]

theorem any_positive (rounding : Bool) (stem : String) {v : Float} (known : v = 0.0 ∨ 0.0 < v) :
    (ask? (.after stem) (positive rounding stem v)).any (· != "0") = decide (0.01 ≤ v) := by
  rw [ask?_positive]
  split
  · rw [Option.any_some, distanceWord_ne_zero rounding known]
  · rename_i none
    rcases known with rfl | positive
    · exact (decide_eq_false Decimal.not_hundredth_le_zero).symm
    · exact absurd positive none

/-- The sides of a padding are read as they are written, by one, two or four classes. -/
theorem sides_padding (rounding : Bool) {p : Design.Padding}
    (known : ∀ v ∈ p.lengths, v = 0.0 ∨ 0.0 < v) :
    sides (ask? · (padding rounding p)) = p.sides 0.01 := by
  simp only [Design.Padding.lengths, List.forall_mem_cons] at known
  obtain ⟨top, right, bottom, left, -⟩ := known
  rw [padding]
  split
  · rename_i zero
    exact (Design.Padding.sides_of_isZero Decimal.not_hundredth_le_zero zero).symm
  · split
    · rename_i uniform
      rw [p.sides_of_isUniform uniform]
      simp +decide [sides, pads, read?_after_spacing, read?_spacing_of_apart,
        distanceWord_ne_zero rounding top]
    · split
      · rename_i symmetric
        rw [p.sides_of_isSymmetric symmetric]
        simp +decide [sides, pads, ask?_positive_of_apart, any_positive rounding _ top,
          any_positive rounding _ left]
      · simp +decide [sides, pads, ask?_positive_of_apart, any_positive rounding _ top,
          any_positive rounding _ right, any_positive rounding _ bottom,
          any_positive rounding _ left, Design.Padding.sides]

theorem ask?_flow_of_padding {q : Query} (own : q ∈ paddingNames) (rounding : Bool)
    (f : Design.Flow) : ask? q (flow rounding f) = ask? q (padding rounding f.padding) := by
  have apart : ∀ q ∈ paddingNames, ∀ p ∈ [Query.word "flex", .after "flex", .after "justify",
      .after "items", .after "gap"], q.apart p = true := by decide
  have others := apart q own
  simp only [List.forall_mem_cons] at others
  obtain ⟨flex, column, justified, aligned, gap, -⟩ := others
  simp [flow, ask?_ite, read?_bare_of_apart flex, read?_named_of_apart, column, justified, aligned,
    ask?_positive_of_apart gap]

theorem sides_names (laid : n.LaidOut parent) :
    sides (read? · (names (classes rounding parent n))) =
      (n.box.layout.flow?.map (·.padding.sides 0.01)).getD .none := by
  have listed : ∀ q ∈ paddingNames, q ∈ flowNames := by decide
  cases present : n.box.style.text with
  | some t =>
      have apart : ∀ q ∈ paddingNames, ∀ p ∈ textBoxNames, q.apart p = true := by decide
      have unflowed : n.box.layout.flow? = none := by
        rw [Design.Layout.flow?, laid.text (by rw [present]; rfl)]
        rfl
      have silent : ∀ q ∈ paddingNames, read? q (names (classes rounding parent n)) = none :=
        fun q own => (read?_of_textBox laid present (listed q own)).trans
          ((spelled_textBox n t.typography).ask? (apart q own))
      rw [sides_congr silent, unflowed]
      rfl
  | none =>
      have own : ∀ q ∈ paddingNames, read? q (names (classes rounding parent n)) =
          ask? q (flowOf rounding n) := fun q own => read?_of_flow present (listed q own)
      rw [sides_congr own, flowOf, Design.Layout.flow?]
      cases mode : n.box.layout.mode with
      | absolute => rfl
      | flow f =>
          have padded : ∀ q ∈ paddingNames, ask? q (flow rounding f) =
              ask? q (padding rounding f.padding) :=
            fun q own => ask?_flow_of_padding own rounding f
          exact (sides_congr padded).trans (sides_padding rounding fun v member =>
            laid.lengths f mode v (List.mem_cons_of_mem _ member))

/-- The classes of a node say of its layout what the design says, where a length of less than a
hundredth counts as zero. -/
theorem layoutFacts_names (laid : n.LaidOut parent)
    (unaligned : ∀ c, n.box.style.fills.getLast?.map Design.Paint.fill = some (.solid c) →
      Unaligned c) :
    layoutFacts (Css.flowAround? parent n) (names (classes rounding parent n)) =
      n.layoutFacts 0.01 parent := by
  simp only [layoutFacts, Node.layoutFacts, positioning_names, flexFacts?_names laid,
    sides_names laid, sizeCase_names laid, rigid_names, textAlign_names unaligned, unbroken_names,
    clips_names, turn?_names, aboutCorner_names]

end

end Handoff.Tailwind
