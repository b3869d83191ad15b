import Handoff.Proofs.Tailwind.Scale
import Handoff.Tailwind.Node

/-!
How the classes of each aspect of a node are called.

A `Query` asks for a class of a given name, or for one that begins in a given way.  `Spelled table`
is that every name of a list of classes answers a query of the table; there is a table for each
aspect of a node.  A name answers no query that is apart from one it answers (`read?_of_apart`), so
a table tells which queries an aspect cannot answer.
-/

namespace Handoff.Tailwind

open Design (Node)

/-! ## Queries -/

/-- What is asked of the name of a class. -/
inductive Query where
  /-- Whether it is this name. -/
  | word (name : String)
  /-- What follows this beginning. -/
  | front (beginning : String)
deriving DecidableEq

/-- What follows a stem and a dash. -/
def Query.after (stem : String) : Query := .front (stem ++ "-")

/-- The answer of a name. -/
def Query.read? : Query → String → Option String
  | word w, name => if name = w then some "" else none
  | front b, name =>
    if b.toList.isPrefixOf name.toList then
      some (String.ofList (name.toList.drop b.toList.length))
    else none

/-- Whether no name answers both of two queries. -/
def Query.apart : Query → Query → Bool
  | word v, word w => v != w
  | word w, front b | front b, word w => !b.toList.isPrefixOf w.toList
  | front a, front b => !a.toList.isPrefixOf b.toList && !b.toList.isPrefixOf a.toList

theorem Query.isSome_read?_word {w name : String} :
    ((word w).read? name).isSome = true ↔ name = w := by
  rw [Query.read?]
  split <;> simp [*]

theorem Query.isSome_read?_front {b name : String} :
    ((front b).read? name).isSome = true ↔ b.toList <+: name.toList := by
  rw [Query.read?, ← List.isPrefixOf_iff_prefix]
  split <;> simp [*]

/-- What follows a beginning is read as it was written. -/
theorem Query.read?_front_append (b rest : String) : (front b).read? (b ++ rest) = some rest := by
  have begins : b.toList.isPrefixOf (b ++ rest).toList = true :=
    List.isPrefixOf_iff_prefix.mpr ⟨rest.toList, String.toList_append.symm⟩
  rw [Query.read?, if_pos begins, String.toList_append, List.drop_left, String.ofList_toList]

theorem Query.read?_of_apart {p q : Query} {name : String} (apart : p.apart q = true)
    (answers : (q.read? name).isSome = true) : p.read? name = none := by
  rw [← Option.not_isSome_iff_eq_none]
  intro both
  cases p with
  | word v =>
      rw [isSome_read?_word] at both
      subst both
      cases q with
      | word w =>
          rw [isSome_read?_word] at answers
          simp [Query.apart, answers] at apart
      | front b =>
          rw [isSome_read?_front, ← List.isPrefixOf_iff_prefix] at answers
          simp [Query.apart, answers] at apart
  | front a =>
      rw [isSome_read?_front] at both
      cases q with
      | word w =>
          rw [isSome_read?_word] at answers
          subst answers
          rw [← List.isPrefixOf_iff_prefix] at both
          simp [Query.apart, both] at apart
      | front b =>
          rw [isSome_read?_front] at answers
          simp only [Query.apart, Bool.and_eq_true, Bool.not_eq_true'] at apart
          rcases List.prefix_or_prefix_of_prefix both answers with shorter | longer
          · rw [List.isPrefixOf_iff_prefix.mpr shorter] at apart
            cases apart.1
          · rw [List.isPrefixOf_iff_prefix.mpr longer] at apart
            cases apart.2

/-- The first answer of a list of classes. -/
def ask? (q : Query) (us : List Utility) : Option String :=
  us.findSome? fun u => q.read? u.text

section

variable {q : Query} {first later us : List Utility} {u : Utility}

@[simp] theorem ask?_nil : ask? q [] = none :=
  rfl

@[simp] theorem ask?_cons : ask? q (u :: us) = (q.read? u.text).or (ask? q us) := by
  rw [ask?, List.findSome?_cons, ask?]
  cases q.read? u.text <;> rfl

@[simp] theorem ask?_append : ask? q (first ++ later) = (ask? q first).or (ask? q later) :=
  List.findSome?_append

theorem ask?_ite {c : Prop} [Decidable c] :
    ask? q (if c then first else later) = if c then ask? q first else ask? q later := by
  split <;> rfl

end

/-! ## Tables of queries -/

/-- A class answers a query of the table. -/
def Listed (table : List Query) (u : Utility) : Prop :=
  ∃ q ∈ table, (q.read? u.text).isSome = true

/-- Every class answers a query of the table. -/
def Spelled (table : List Query) (us : List Utility) : Prop :=
  ∀ u ∈ us, Listed table u

section

variable {table : List Query} {u : Utility} {us first later : List Utility}

@[simp] theorem spelled_nil : Spelled table [] :=
  List.forall_mem_nil _

@[simp] theorem spelled_cons : Spelled table (u :: us) ↔ Listed table u ∧ Spelled table us :=
  List.forall_mem_cons

@[simp] theorem spelled_append :
    Spelled table (first ++ later) ↔ Spelled table first ∧ Spelled table later :=
  List.forall_mem_append

@[simp] theorem spelled_ite {c : Prop} [Decidable c] {yes no : List Utility} :
    Spelled table (if c then yes else no) ↔ (c → Spelled table yes) ∧ (¬c → Spelled table no) := by
  by_cases h : c <;> simp [h]

theorem Listed.mono {wider : List Query} (listed : Listed table u) (subset : table ⊆ wider) :
    Listed wider u := by
  obtain ⟨q, member, answers⟩ := listed
  exact ⟨q, subset member, answers⟩

theorem Spelled.mono {wider : List Query} (spelled : Spelled table us) (subset : table ⊆ wider) :
    Spelled wider us :=
  fun u member => (spelled u member).mono subset

/-- A class does not answer what is apart from its table. -/
theorem Listed.read? (listed : Listed table u) {q : Query}
    (apart : ∀ p ∈ table, q.apart p = true) : q.read? u.text = none := by
  obtain ⟨p, member, answers⟩ := listed
  exact Query.read?_of_apart (apart p member) answers

/-- A list of classes does not answer what is apart from its table. -/
theorem Spelled.ask? (spelled : Spelled table us) {q : Query}
    (apart : ∀ p ∈ table, q.apart p = true) : ask? q us = none := by
  rw [Tailwind.ask?, List.findSome?_eq_none_iff]
  exact fun u member => (spelled u member).read? apart

/-! ### Single classes -/

theorem text_named (stem word : String) : (Utility.named stem word).text = stem ++ "-" ++ word :=
  rfl

/-- A length in brackets stands like a word. -/
theorem text_length (stem : String) (v : Float) : Utility.text ⟨stem, .length v⟩ =
    (Utility.named stem ("[" ++ Decimal.plain v ++ "px]")).text := by
  have opening : "-[" = "-" ++ "[" := by decide
  rw [text_named, Utility.text, Suffix.after, opening]
  simp only [String.append_assoc]

theorem text_spacing (rounding : Bool) (stem : String) (v : Float) :
    (spacing rounding stem v).text = stem ++ "-" ++ distanceWord rounding v :=
  scaled_after rounding v stem

theorem read?_after_named (stem word : String) :
    (Query.after stem).read? (Utility.named stem word).text = some word := by
  rw [text_named, Query.after, Query.read?_front_append]

theorem read?_after_spacing (rounding : Bool) (stem : String) (v : Float) :
    (Query.after stem).read? (spacing rounding stem v).text = some (distanceWord rounding v) := by
  rw [text_spacing, Query.after, Query.read?_front_append]

section

variable {q : Query}

theorem read?_bare (w : String) : (Query.word w).read? (Utility.bare w).text = some "" :=
  if_pos rfl

theorem read?_word {w stem word : String} (same : stem ++ "-" ++ word = w) :
    (Query.word w).read? (Utility.named stem word).text = some "" :=
  if_pos same

theorem read?_other_word {w stem word : String} (other : stem ++ "-" ++ word ≠ w) :
    (Query.word w).read? (Utility.named stem word).text = none :=
  if_neg other

theorem read?_bare_of_apart {w : String} (apart : q.apart (.word w) = true) :
    q.read? (Utility.bare w).text = none := by
  refine Query.read?_of_apart apart ?_
  rw [read?_bare]
  rfl

theorem read?_named_of_apart {stem word : String} (apart : q.apart (.after stem) = true) :
    q.read? (Utility.named stem word).text = none := by
  refine Query.read?_of_apart apart ?_
  rw [read?_after_named]
  rfl

theorem read?_spacing_of_apart {rounding : Bool} {stem : String} {v : Float}
    (apart : q.apart (.after stem) = true) : q.read? (spacing rounding stem v).text = none := by
  refine Query.read?_of_apart apart ?_
  rw [read?_after_spacing]
  rfl

theorem ask?_positive (rounding : Bool) (stem : String) (v : Float) :
    ask? (.after stem) (positive rounding stem v) =
      if v > 0.0 then some (distanceWord rounding v) else none := by
  rw [positive, ask?_ite, ask?_cons, read?_after_spacing]
  rfl

theorem ask?_positive_of_apart {rounding : Bool} {stem : String} {v : Float}
    (apart : q.apart (.after stem) = true) : ask? q (positive rounding stem v) = none := by
  rw [positive, ask?_ite, ask?_cons, read?_spacing_of_apart apart]
  exact ite_self _

end

theorem listed_bare {w : String} (listed : Query.word w ∈ table) : Listed table (.bare w) :=
  ⟨_, listed, Query.isSome_read?_word.mpr rfl⟩

theorem listed_named {stem word : String} (listed : Query.after stem ∈ table) :
    Listed table (.named stem word) := by
  refine ⟨_, listed, ?_⟩
  rw [read?_after_named]
  rfl

theorem listed_word {stem word : String} (listed : Query.word (stem ++ "-" ++ word) ∈ table) :
    Listed table (.named stem word) :=
  ⟨_, listed, Query.isSome_read?_word.mpr rfl⟩

theorem listed_spacing {rounding : Bool} {stem : String} {v : Float}
    (listed : Query.after stem ∈ table) : Listed table (spacing rounding stem v) := by
  refine ⟨_, listed, ?_⟩
  rw [read?_after_spacing]
  rfl

theorem spelled_positive {rounding : Bool} {stem : String} {v : Float}
    (listed : Query.after stem ∈ table) : Spelled table (positive rounding stem v) := by
  unfold positive
  simp [listed_spacing listed]

/-- A class begins as its stem does. -/
theorem listed_front {b stem : String} {suffix : Suffix} (begins : b.toList <+: stem.toList)
    (listed : Query.front b ∈ table) : Listed table ⟨stem, suffix⟩ := by
  refine ⟨_, listed, Query.isSome_read?_front.mpr (begins.trans ?_)⟩
  cases suffix with
  | nothing => exact List.prefix_rfl
  | word text | length pixels => simp [Utility.text, Suffix.after]

theorem listed_stem {stem : String} {suffix : Suffix} (listed : Query.front stem ∈ table) :
    Listed table ⟨stem, suffix⟩ :=
  listed_front List.prefix_rfl listed

/-- A declaration in brackets begins with its property. -/
theorem listed_css {property value close : String} (begins : "[".toList <+: property.toList)
    (listed : Query.front "[" ∈ table) : Listed table (.bare (property ++ value ++ close)) := by
  refine listed_front (begins.trans ?_) listed
  rw [String.append_assoc, String.toList_append]
  exact List.prefix_append _ _

end

/-! ### Aspects -/

/-- The names of placements. -/
def placementNames : List Query :=
  [.word "absolute", .word "relative", .after "left", .after "top"]

theorem spelled_placement (rounding : Bool) (n : Node) :
    Spelled placementNames (placement rounding n) := by
  unfold placement
  split <;> simp +decide [placementNames, listed_bare, listed_spacing]

/-- The names of paddings. -/
def paddingNames : List Query :=
  [.after "p", .after "px", .after "py", .after "pt", .after "pr", .after "pb", .after "pl"]

theorem spelled_padding (rounding : Bool) (p : Design.Padding) :
    Spelled paddingNames (padding rounding p) := by
  unfold padding
  repeat' split
  all_goals simp +decide [spelled_positive, listed_spacing]

/-- The names of flows. -/
def flowNames : List Query :=
  [Query.word "flex", .word "flex-col", .word "flex-wrap", .after "justify", .after "items",
    .after "gap"] ++ paddingNames

theorem spelled_flow (rounding : Bool) (f : Design.Flow) :
    Spelled flowNames (flow rounding f) := by
  have padded : Spelled flowNames (padding rounding f.padding) :=
    (spelled_padding rounding f.padding).mono (by decide)
  simp +decide [flow, listed_bare, listed_named, listed_word, spelled_positive, padded]

/-- The names of the size along an axis. -/
def sizeNames (axis : Design.Direction) : List Query :=
  [.after (sizeStem axis), .word "shrink-0", .word "flex-1", .word "self-stretch"]

theorem spelled_size (rounding : Bool) (parent : Option Node) (n : Node)
    (axis : Design.Direction) : Spelled (sizeNames axis) (size rounding parent n axis) := by
  have own : Query.after (sizeStem axis) ∈ sizeNames axis := List.mem_cons_self
  have shrink : Query.word ("shrink" ++ "-" ++ "0") ∈ sizeNames axis := by cases axis <;> decide
  have grow : Query.word ("flex" ++ "-" ++ "1") ∈ sizeNames axis := by cases axis <;> decide
  have stretch : Query.word ("self" ++ "-" ++ "stretch") ∈ sizeNames axis := by
    cases axis <;> decide
  unfold size
  split
  · simp [listed_spacing own, listed_word shrink]
  · exact spelled_nil
  · split
    · simp [listed_named own]
    · simp [listed_word grow, listed_word stretch]

/-! ### Text -/

/-- The names of gradients. -/
def gradientNames : List Query :=
  [.after "bg-gradient-to", .after "from", .after "via", .after "to", .after "bg"]

theorem spelled_gradient (angle : Float) (stops : List Design.GradientStop) :
    Spelled gradientNames (gradient angle stops) := by
  have colors : Spelled gradientNames (stopClasses stops) := by
    unfold stopClasses
    split <;> simp +decide [listed_named]
  unfold gradient
  split
  · exact spelled_cons.mpr ⟨listed_named (by decide), colors⟩
  · exact spelled_cons.mpr ⟨listed_named (by decide), spelled_nil⟩

/-- The names of colors of text and of typographies. -/
def letterNames : List Query :=
  gradientNames ++ [Query.front "text", .after "font", .word "italic", .after "leading",
    .after "tracking", .word "uppercase", .word "lowercase", .word "capitalize",
    .word "underline", .word "line-through"]

theorem spelled_textPaint (fills : List Design.Paint) :
    Spelled letterNames (textPaint fills) := by
  unfold textPaint
  split
  · exact spelled_cons.mpr ⟨listed_stem (by decide), spelled_nil⟩
  · refine spelled_append.mpr ⟨(spelled_gradient _ _).mono (List.subset_append_left _ _), ?_⟩
    have clip : Listed letterNames (.named "bg" "clip-text") := listed_named (by decide)
    have clear : Listed letterNames (.named "text" "transparent") := listed_stem (by decide)
    simp [clip, clear]
  all_goals exact spelled_nil

theorem spelled_typography (rounding : Bool) (t : Design.Typography) :
    Spelled letterNames (typography rounding t) := by
  have size : Listed letterNames ⟨"text", scaled rounding fontSizeScale t.size⟩ :=
    listed_stem (by decide)
  have height : Spelled letterNames
      (t.lineHeight.toList.map fun h => .named "leading" (leading h)) := by
    cases t.lineHeight <;> simp +decide [listed_named]
  have aligned : Spelled letterNames (textAlign t.align) := by
    have word : ∀ w, Listed letterNames (.named "text" w) := fun w => listed_stem (by decide)
    cases t.align <;> simp [textAlign, word]
  have cased : Spelled letterNames (textCase t.textCase) := by
    cases t.textCase <;> simp +decide [textCase, listed_bare]
  have decorated : Spelled letterNames (decoration t.decoration) := by
    cases t.decoration <;> simp +decide [decoration, listed_bare, listed_word]
  simp +decide [typography, size, height, aligned, cased, decorated, listed_named, listed_bare]

/-- The names of boxes around text. -/
def textBoxNames : List Query := [.word "flex", .word "flex-col", .after "justify"]

theorem spelled_textBox (n : Node) (t : Design.Typography) :
    Spelled textBoxNames (textBox n t) := by
  unfold textBox
  cases t.alignVertical <;> simp +decide [listed_bare, listed_named, listed_word]

/-! ### Paint -/

/-- The names of backgrounds and borders. -/
def paintNames : List Query :=
  gradientNames ++ [Query.front "[", .after "mix-blend", .front "outline", .front "border"]

theorem spelled_content {n : Node} (plain : n.box.style.text = none) (rounding : Bool) :
    Spelled paintNames (content rounding n) := by
  have line : Spelled paintNames
      (n.box.style.topSolidStroke?.toList.map fun c => .named "bg" (color c)) := by
    cases n.box.style.topSolidStroke? <;> simp +decide [listed_named]
  have image : ∀ mode, Spelled paintNames (image n mode) := by
    intro mode
    cases mode <;> simp +decide [Tailwind.image, listed_named]
  have filled : ∀ fills, Spelled paintNames (fillClasses n fills) := by
    intro fills
    unfold fillClasses
    split
    · exact spelled_nil
    · split
      · exact spelled_cons.mpr ⟨listed_named (by decide), spelled_nil⟩
      · exact (spelled_gradient _ _).mono (List.subset_append_left _ _)
      · exact image _
    · exact spelled_cons.mpr ⟨listed_css (by decide) (by decide), spelled_nil⟩
  have blended : ∀ fills, Spelled paintNames (blend fills) := by
    intro fills
    unfold blend
    split
    · split
      · exact spelled_cons.mpr ⟨listed_named (by decide), spelled_nil⟩
      · exact spelled_cons.mpr ⟨listed_css (by decide) (by decide), spelled_nil⟩
    · exact spelled_nil
  have framed : Spelled paintNames (border rounding n) := by
    have own : ∀ stem, Query.front stem ∈ paintNames → ∀ suffix : Suffix,
        Listed paintNames ⟨stem, suffix⟩ := fun stem listed suffix => listed_stem listed
    unfold border
    split
    · split
      · split
        · exact spelled_cons.mpr ⟨own _ (by decide) _, spelled_cons.mpr
            ⟨own _ (by decide) _, spelled_cons.mpr ⟨own _ (by decide) _, spelled_nil⟩⟩⟩
        · exact spelled_cons.mpr ⟨own _ (by decide) _, spelled_cons.mpr
            ⟨own _ (by decide) _, spelled_nil⟩⟩
      · exact spelled_cons.mpr ⟨own _ (by decide) _, spelled_cons.mpr
          ⟨listed_css (by decide) (by decide), spelled_nil⟩⟩
      · exact spelled_nil
    · exact spelled_nil
  unfold content
  rw [plain]
  simp [line, filled, blended, framed]

/-- The names of corners and effects. -/
def effectNames : List Query :=
  [.front "rounded", .front "blur", .front "backdrop-blur", .front "[", .after "shadow"]

theorem spelled_corners (rounding : Bool) (n : Node) :
    Spelled effectNames (corners rounding n) := by
  have one : ∀ stem r, "rounded".toList <+: stem.toList →
      Spelled effectNames (corner rounding stem r) := by
    intro stem r begins
    unfold corner
    simp +decide [listed_front begins]
  unfold corners
  split
  · exact spelled_cons.mpr ⟨listed_stem (by decide), spelled_nil⟩
  · split
    · exact spelled_nil
    · exact spelled_cons.mpr ⟨listed_stem (by decide), spelled_nil⟩
    · simp only [spelled_append]
      exact ⟨⟨⟨one _ _ (by decide), one _ _ (by decide)⟩, one _ _ (by decide)⟩,
        one _ _ (by decide)⟩

theorem spelled_effects (rounding : Bool) (n : Node) :
    Spelled effectNames (effects rounding n) := by
  have blurs : Spelled effectNames (n.box.style.effects.flatMap (blur rounding)) := by
    intro u member
    obtain ⟨e, -, own⟩ := List.mem_flatMap.mp member
    have single : Spelled effectNames (blur rounding e) := by
      cases e with
      | dropShadow s | innerShadow s => exact spelled_nil
      | layerBlur r | backgroundBlur r =>
          exact spelled_cons.mpr ⟨listed_stem (by decide), spelled_nil⟩
    exact single u own
  refine spelled_append.mpr ⟨blurs, ?_⟩
  split
  · split
    · exact spelled_nil
    · exact spelled_cons.mpr ⟨listed_css (by decide) (by decide), spelled_nil⟩
  · split
    · exact spelled_nil
    · exact spelled_cons.mpr ⟨listed_named (by decide), spelled_nil⟩

/-- The names of opacity, clipping and rotation. -/
def finishNames : List Query :=
  [.after "opacity", .word "overflow-hidden", .after "rotate", .after "-rotate",
    .word "origin-top-left"]

/-- A rotation has a direction and a magnitude, or its degrees in brackets. -/
theorem rotation_cases (degrees : Float) :
    (degrees < 0.0 ∧ rotation degrees = .named "-rotate" (Decimal.plain degrees.abs)) ∨
    (¬degrees < 0.0 ∧ rotation degrees = .named "rotate" (Decimal.plain degrees.abs)) ∨
    rotation degrees = .named "rotate" ("[" ++ Decimal.plain degrees ++ "deg]") := by
  unfold rotation
  dsimp only
  split
  · by_cases negative : degrees < 0.0
    · exact .inl ⟨negative, by rw [if_pos negative]⟩
    · exact .inr (.inl ⟨negative, by rw [if_neg negative]⟩)
  · exact .inr (.inr rfl)

theorem listed_rotation (degrees : Float) :
    Listed [.after "rotate", .after "-rotate"] (rotation degrees) := by
  rcases rotation_cases degrees with ⟨-, back⟩ | ⟨-, forth⟩ | bracketed
  · rw [back]
    exact listed_named (by decide)
  · rw [forth]
    exact listed_named (by decide)
  · rw [bracketed]
    exact listed_named (by decide)

theorem spelled_finish (n : Node) : Spelled finishNames (finish n) := by
  have turned : ∀ degrees, Listed finishNames (rotation degrees) :=
    fun degrees => (listed_rotation degrees).mono (by decide)
  have faded : ∀ word, Listed finishNames (.named "opacity" word) :=
    fun _ => listed_named (by decide)
  have clipped : Listed finishNames (.named "overflow" "hidden") := listed_word (by decide)
  have pinned : Listed finishNames (.named "origin" "top-left") := listed_word (by decide)
  simp [finish, faded, clipped, turned, pinned]

end Handoff.Tailwind
