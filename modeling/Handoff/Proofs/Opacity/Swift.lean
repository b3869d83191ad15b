import Handoff.Proofs.Emission
import Handoff.Proofs.Opacity.Exchange
import Handoff.Proofs.Opacity.Fading
import Handoff.Proofs.Opacity.Tally
import Handoff.Proofs.Template.Scaffold

/-!
A fading fill in SwiftUI.

How far a view is indented adds only blanks to it (`tally_render`), so a view differs by what a view
in it or one of its modifiers differs (`shifts_view`).  A fading color says its opacity, a word that
it has not if it is opaque, and a letter of that word tells.

The main statement is `Swift.artifacts_fades`.
-/

namespace Handoff.Swift

open Decimal (plain)
open Design (Box Node Paint Fill ColorRef GradientStop)
open Text (tally isBlank)

/-! ## Views -/

/-- The occurrences in a comment. -/
def commentSigns (c : Char) : Option String → Nat
  | some comment => tally c "// " + tally c comment
  | none => 0

/-- The occurrences in the braces around views. -/
def braceSigns (c : Char) (views : List View) : Nat :=
  if views.isEmpty then 0 else tally c "\x7b" + tally c "\x7d"

/-- The occurrences in a modifier. -/
def modifierSigns (c : Char) (modifier : String) : Nat := tally c "." + tally c modifier

mutual

/-- The occurrences in a view. -/
def signs (c : Char) : View → Nat
  | .mk comment head children modifiers =>
    commentSigns c comment + tally c head + braceSigns c children + listSigns c children +
      (modifiers.map (modifierSigns c)).sum

/-- The occurrences in views. -/
def listSigns (c : Char) : List View → Nat
  | [] => 0
  | v :: rest => signs c v + listSigns c rest

end

section

variable {c : Char}

theorem listSigns_eq (views : List View) : listSigns c views = total (signs c) views := by
  induction views with
  | nil => rfl
  | cons v rest ih => rw [listSigns, ih, total, total, List.map_cons, List.sum_cons]

section

variable (solid : isBlank c = false)
include solid

theorem tally_modifierText (indent : Nat) (modifier : String) :
    tally c (View.modifierText indent modifier) = modifierSigns c modifier := by
  have feed : tally c "\n" = 0 := Text.tally_of_blank solid (by decide)
  have other : c ≠ '\n' := Text.ne_of_not_isBlank solid (by decide)
  have absent : c ∉ '\n' :: List.replicate indent ' ' := by
    rw [List.mem_cons, not_or]
    exact ⟨other, List.count_eq_zero.mp (Text.count_spaces solid indent)⟩
  unfold View.modifierText modifierSigns
  simp only [Text.tally_append, feed, Text.tally_spaces solid, Text.tally_substitute other absent]
  omega

theorem tally_modifiers (indent : Nat) (modifiers : List String) :
    tally c (String.join (modifiers.map (View.modifierText indent))) =
      (modifiers.map (modifierSigns c)).sum := by
  rw [Text.tally_join, List.map_map]
  exact congrArg List.sum (List.map_congr_left fun text _ => tally_modifierText solid indent text)

theorem tally_commentText (indent : Nat) (comment : Option String) :
    tally c (View.commentText indent comment) = commentSigns c comment := by
  have feed : tally c "\n" = 0 := Text.tally_of_blank solid (by decide)
  cases comment with
  | none => rfl
  | some comment =>
      simp only [View.commentText, commentSigns, Text.tally_append, feed, Text.tally_spaces solid]
      omega

mutual

/-- A view has its signs however far it is indented. -/
theorem tally_render (indent : Nat) : ∀ v : View, tally c (v.render indent) = signs c v
  | .mk comment head [] modifiers => by
      rw [View.render, signs, listSigns]
      simp only [Text.tally_append, tally_commentText solid, Text.tally_spaces solid,
        tally_modifiers solid, Text.tally_empty, braceSigns]
      simp
  | .mk comment head (child :: rest) modifiers => by
      have opening : tally c " \x7b\n" = tally c "\x7b" := by
        have blank : tally c " " = 0 := Text.tally_of_blank solid (by decide)
        have feed : tally c "\n" = 0 := Text.tally_of_blank solid (by decide)
        have split : tally c " \x7b\n" = tally c " " + tally c "\x7b" + tally c "\n" := by
          rw [← Text.tally_append, ← Text.tally_append]
          rfl
        omega
      rw [View.render, signs]
      simp only [Text.tally_append, tally_commentText solid, Text.tally_spaces solid,
        tally_modifiers solid, tally_renderList (indent + View.step) (child :: rest), opening,
        braceSigns, List.isEmpty_cons, Bool.false_eq_true, if_false]
      omega

theorem tally_renderList (indent : Nat) : ∀ views : List View,
    tally c (View.renderList indent views) = listSigns c views
  | [] => rfl
  | v :: rest => by
      have feed : tally c "\n" = 0 := Text.tally_of_blank solid (by decide)
      rw [View.renderList, listSigns]
      simp only [Text.tally_append, feed, tally_render indent v, tally_renderList indent rest]
      omega

end

end

/-! ## Parts of views -/

theorem signs_leaf (head : String) (modifiers : List String) :
    signs c ((View.leaf head).modified modifiers) =
      tally c head + (modifiers.map (modifierSigns c)).sum := by
  have braces : braceSigns c [] = 0 := rfl
  unfold View.leaf View.modified
  simp only [View.comment, View.head, View.children, View.modifiers, List.nil_append, signs,
    commentSigns, listSigns, braces]
  omega

theorem adds_intersperse (spacing : View) (before after : List View) :
    Adds (signs c) (total (signs c)) fun v => (before ++ v :: after).intersperse spacing := by
  have split : ∃ left right, ∀ v,
      (before ++ v :: after).intersperse spacing = left ++ v :: right := by
    induction before with
    | nil =>
        cases after with
        | nil => exact ⟨[], [], fun v => rfl⟩
        | cons next rest => exact ⟨[], spacing :: (next :: rest).intersperse spacing, fun v => rfl⟩
    | cons first rest ih =>
        obtain ⟨left, right, own⟩ := ih
        refine ⟨first :: spacing :: left, right, fun v => ?_⟩
        have own := own v
        cases rest <;> exact congrArg (fun views => first :: spacing :: views) own
  obtain ⟨left, right, split⟩ := split
  simp only [split]
  exact adds_inList left right

/-- A view among others in a group. -/
theorem adds_group (head : String) {f : View → List View} (own : Adds (signs c) (total (signs c)) f)
    (some : ∀ v, f v ≠ []) : Adds (signs c) (signs c) fun v => View.group head (f v) := by
  obtain ⟨rest, own⟩ := own
  refine ⟨tally c head + (tally c "\x7b" + tally c "\x7d") + rest, fun v => ?_⟩
  have braces : braceSigns c (f v) = tally c "\x7b" + tally c "\x7d" := by
    rw [braceSigns, List.isEmpty_eq_false_iff.mpr (some v)]
    rfl
  unfold View.group
  rw [signs, listSigns_eq, own, braces, commentSigns, List.map_nil, List.sum_nil]
  omega

theorem adds_layered (before after : List View) :
    Adds (signs c) (signs c) fun v => layered (before ++ v :: after) :=
  adds_group _ (adds_inList before after) fun v => by simp

theorem adds_stackView (f : Design.Flow) (before after : List View) :
    Adds (signs c) (signs c) fun v => stackView f (before ++ v :: after) := by
  unfold stackView
  split
  · refine adds_group _ (adds_intersperse spacer before after) fun v => ?_
    cases before <;> cases after <;> simp [List.intersperse]
  · exact adds_group _ (adds_inList before after) fun v => by simp

/-- The modifiers of a view without comment count to those that it had before. -/
theorem signs_commented {v : View} (bare : v.comment = none) (modifiers : List String)
    (comment : Option String) : signs c ((v.modified modifiers).commented comment) =
      commentSigns c comment + signs c v + (modifiers.map (modifierSigns c)).sum := by
  obtain ⟨own, head, children, before⟩ := v
  obtain rfl : own = none := bare
  rw [View.modified, View.commented, signs, signs]
  simp only [View.head, View.children, View.modifiers, List.map_append, List.sum_append,
    commentSigns]
  omega

theorem adds_modifiers {v : View} (bare : v.comment = none) (comment : Option String) :
    Adds (total (modifierSigns c)) (signs c) fun modifiers =>
      (v.modified modifiers).commented comment :=
  ⟨commentSigns c comment + signs c v, fun modifiers => signs_commented bare modifiers comment⟩

theorem comment_containerView (b : Box) (views : List (Node × View)) :
    (containerView b views).comment = none := by
  have stack (f : Design.Flow) (views : List View) : (stackView f views).comment = none := by
    unfold stackView
    split <;> rfl
  unfold containerView
  split
  · rfl
  · split
    · dsimp only
      split
      · exact stack _ _
      · rfl
    · rfl

end

/-! ## Nodes -/

section

variable {c : Char} {same : Prop} {more : Int} {P Q : Paint} {b : Box} {n m : Node}

/-- A view without comment differs as much when it is modified and gets a comment. -/
theorem shifts_commented {v v' : View} (inner : Shifts same more (signs c) v v')
    (bare : v.comment = none) (bare' : v'.comment = none) (modifiers : List String)
    (comment : Option String) : Shifts same more (signs c)
      ((v.modified modifiers).commented comment) ((v'.modified modifiers).commented comment) where
  eq given := by rw [inner.eq given]
  count := by
    have count := inner.count
    rw [signs_commented bare, signs_commented bare']
    omega

/-- The view of a container differs by that of one of its children. -/
theorem shifts_containerView {before after : List (Node × View)} {v v' : View}
    (layout : m.box.layout = n.box.layout) (inner : Shifts same more (signs c) v v') :
    Shifts same more (signs c) (containerView b (before ++ (n, v) :: after))
      (containerView b (before ++ (m, v') :: after)) := by
  have some (x : Node × View) : (before ++ x :: after).isEmpty = false := by simp
  unfold containerView
  simp only [some, Bool.false_eq_true, if_false, Design.placedAs_middle, layout]
  cases b.layout.mode with
  | absolute =>
      simp only [List.map_append, List.map_cons]
      exact inner.around (adds_layered _ _)
  | flow f =>
      dsimp only
      cases n.box.layout.placement.isAbsolute with
      | false =>
          -- The child is in the stack, which is alone or under those that are placed.
          have stack := inner.around (adds_stackView f (Node.placedAs false before)
            (Node.placedAs false after))
          simp only [beq_self_eq_true, if_true, Bool.false_beq, Bool.not_true, Bool.false_eq_true,
            if_false, List.append_nil, List.append_assoc, List.singleton_append]
          split
          · exact stack
          · exact stack.around (adds_layered [] _)
      | true =>
          simp only [beq_self_eq_true, if_true, Bool.true_beq, Bool.false_eq_true, if_false,
            List.append_nil, List.append_assoc, List.singleton_append]
          split
          · rename_i none
            exact absurd none (by simp)
          · split
            · rename_i none
              exact absurd none (by simp)
            · exact inner.around (adds_layered (_ :: _) _)

theorem not_isShape (container : b.IsContainer) (children : List Node) :
    isShape (.mk b children) = false := by
  obtain ⟨holds, -⟩ := container
  unfold isShape
  cases kind : b.kind <;> simp_all [Node.box, Design.Kind.holdsChildren]

theorem base_container (container : b.IsContainer) (children : List Node)
    (views : List (Node × View)) : base (.mk b children) views = containerView b views := by
  obtain ⟨image, -, line⟩ := container.kind_ne
  unfold base
  simp only [not_isShape container, Node.box, container.text, image, line, if_false,
    Bool.false_eq_true]

/-- Modifiers look at no more of the children than whether there are any. -/
theorem modifiers_congr {children children' : List Node}
    (some : children.isEmpty = children'.isEmpty) :
    modifiers (.mk b children) = modifiers (.mk b children') := by
  have frames : frame (.mk b children) = frame (.mk b children') := by
    unfold frame
    simp only [Node.box, Node.children, some]
    rfl
  have shapes : isShape (.mk b children) = isShape (.mk b children') := by
    unfold isShape
    simp only [Node.box, Node.children, some]
  unfold modifiers
  simp only [frames, shapes, Node.box]
  rfl

/-- The modifiers of a container after its background. -/
def laterModifiers (b : Box) : List String :=
  stroke b ++ (if b.style.clipsContent then ["clipShape(" ++ shape b ++ ")"] else []) ++
    b.style.effects.flatMap effect ++
      (if b.style.opacity < 1.0 then ["opacity(" ++ plain b.style.opacity ++ ")"] else []) ++
        (if b.geometry.rotation != 0.0 then ["rotationEffect(.degrees(" ++
          plain (-b.geometry.rotation) ++ "), anchor: .topLeading)"] else []) ++
          placement b.layout.placement

/-- The fill of a container is in a modifier of its own. -/
theorem modifiers_withFill (container : b.IsContainer) (children : List Node) (P : Paint) :
    modifiers (.mk (b.withFill P) children) =
      ((match b.layout.flow? with
        | some f => padding f.padding
        | none => []) ++ frame (.mk b children)) ++
        ("background(" ++ (fillLayer b P).render 0 ++ ")") :: laterModifiers b := by
  have shape := not_isShape (container.withFill P) children
  obtain ⟨image, -, line⟩ := container.kind_ne
  have text : (b.withFill P).style.text = none := container.text
  have kind : (b.withFill P).kind = b.kind := rfl
  have other : (b.kind == .image) = false := beq_false_of_ne image
  unfold modifiers laterModifiers
  simp only [shape, Node.box, text, kind, other, line, bne, Option.isNone_none, Bool.not_false,
    Bool.and_true, if_true, Bool.false_and, Bool.or_false, Bool.false_eq_true, if_false,
    List.append_assoc]
  rfl

/-- The view of a node differs by the fill of one node in it. -/
theorem shifts_view (names : Bool)
    (fill : ∀ b, Shifts same more (signs c) (fillLayer b P) (fillLayer b Q))
    (solid : isBlank c = false) (changed : n.Exchanged P Q m) :
    Shifts same more (signs c) (view names n) (view names m) := by
  induction changed with
  | @own b children container =>
      have first := container.withFill P
      have second := container.withFill Q
      rw [view, view, base_container first, base_container second, modifiers_withFill container,
        modifiers_withFill container]
      have text : Adds (signs c) (modifierSigns c) fun v =>
          "background(" ++ v.render 0 ++ ")" := by
        have whole := (Text.adds_enclose "background(" ")").comp (adds_of_eq (tally_render solid 0))
        obtain ⟨rest, whole⟩ := whole
        exact ⟨tally c "." + rest, fun v => by
          rw [modifierSigns, whole, Nat.add_assoc]⟩
      have list := (fill b).around ((adds_inList ((match b.layout.flow? with
        | some f => padding f.padding
        | none => []) ++ frame (.mk b children)) (laterModifiers b)).comp text)
      exact list.around (adds_modifiers (comment_containerView _ _) (commentOf names b))
  | @inside b before after n m container changed ih =>
      have some : (before ++ n :: after).isEmpty = (before ++ m :: after).isEmpty := by
        cases before <;> rfl
      rw [view, view, base_container container, base_container container, childViews_eq_map,
        childViews_eq_map, List.map_append, List.map_append, List.map_cons, List.map_cons,
        modifiers_congr some]
      exact shifts_commented (shifts_containerView changed.layout ih) (comment_containerView _ _)
        (comment_containerView _ _) _ _

end

/-! ## Colors -/

section

variable {c d : ColorRef} {P Q : Paint} {stops stops' : List GradientStop}

/-- A fading color says its opacity. -/
theorem tally_color_fades (fades : c.Fades d) :
    tally 'y' (color d) = tally 'y' (color c) + 1 := by
  have half : d.color.a = 0.5 := by rw [fades.half]
  have full := Color.isOpaque_of_full fades.full
  have faint := Color.not_isOpaque_of_half half
  have number : tally 'y' "0.5" = 0 ∧ tally 'y' ")" = 0 := by decide
  unfold color
  rw [fades.palette]
  simp only [full, faint, half, Decimal.plain_half, if_true, Bool.false_eq_true, if_false]
  split
  · have word : tally 'y' ".opacity(" = 1 := by decide
    simp only [Text.tally_append, number, word]
  · have word : tally 'y' ", opacity: " = 1 := by decide
    have channels : component d.color.r = component c.color.r ∧
        component d.color.g = component c.color.g ∧ component d.color.b = component c.color.b := by
      rw [fades.half]
      exact ⟨rfl, rfl, rfl⟩
    simp only [Text.tally_append, number, word, channels]

/-- Every stop of a fading gradient says its opacity. -/
theorem tally_linearGradient_fades (angle : Float)
    (each : List.Forall₂ GradientStop.Fades stops stops') :
    tally 'y' (linearGradient angle stops') =
      tally 'y' (linearGradient angle stops) + stops.length := by
  have comma : tally 'y' ", " = 0 := by decide
  have own (s : GradientStop) : tally 'y' (stop s) = tally 'y' ".init(color: " +
      tally 'y' (color s.color) + tally 'y' ", location: " + tally 'y' (plain s.position) +
        tally 'y' ")" := by
    simp only [← Text.tally_append]
    rfl
  have colors : ((stops'.map stop).map (tally 'y')).sum =
      ((stops.map stop).map (tally 'y')).sum + stops.length := by
    induction each with
    | nil => rfl
    | cons fades _ ih =>
        simp only [List.map_cons, List.sum_cons, ih, own, tally_color_fades fades.color,
          fades.position, List.length_cons]
        omega
  unfold linearGradient
  simp only [Text.tally_append, Text.tally_intercalate comma, colors]
  omega

/-- The word for opacity tells whether a fill fades, unless it is an image. -/
theorem exists_shifts_fillLayer (fades : P.Fades Q) : ∃ more : Int,
    (more = 0 → P.fill.isImage = true) ∧ ∀ b : Box, Shifts (P.fill.isImage = true) more
      (signs 'y') (fillLayer b P) (fillLayer b Q) := by
  obtain ⟨fill, opacity, mode⟩ := P
  obtain ⟨fill', opacity', mode'⟩ := Q
  obtain ⟨changed, -⟩ := fades
  cases changed with
  | @solid c d color =>
      refine ⟨1, by omega, fun b => ⟨fun image => (by cases image), ?_⟩⟩
      have text := tally_color_fades color
      simp only [fillLayer]
      split
      · have leaf (head : String) : signs 'y' (.leaf head) = tally 'y' head := signs_leaf head []
        rw [leaf, leaf, text]
        omega
      · simp only [signs_leaf, List.map_cons, List.map_nil, List.sum_cons, List.sum_nil,
          modifierSigns, Text.tally_append, text]
        omega
  | @linearGradient angle stops stops' some each =>
      have length := List.length_pos_iff.mpr some
      have text := tally_linearGradient_fades angle each
      refine ⟨stops.length, by omega, fun b => ⟨fun image => (by cases image), ?_⟩⟩
      simp only [fillLayer, signs_leaf, List.map_cons, List.map_nil, List.sum_cons, List.sum_nil,
        modifierSigns, Text.tally_append, text]
      omega
  | image => exact ⟨0, fun _ => rfl, fun b => .refl _ _ _⟩

end

/-! ## Code -/

section

variable {same : Prop} {more : Int} {P Q : Paint} {n m : Node} {forest forest' : List Node}

theorem listWarnings_append (before after : List Node) :
    listWarnings (before ++ after) = listWarnings before ++ listWarnings after := by
  induction before with
  | nil => rfl
  | cons n rest ih => rw [List.cons_append, listWarnings, listWarnings, ih, List.append_assoc]

/-- Nothing of a container is missing for what its fill is. -/
theorem warnings_container {b : Box} (container : b.IsContainer) (children : List Node) :
    warnings (.mk b children) = Warning.about b.id b.unsupported ++ listWarnings children ++
      Warning.about b.id (flowOmissions (.mk b children) ++ strokeOmissions b ++
        b.style.effects.flatMap effectOmissions) := by
  have shape := not_isShape container children
  obtain ⟨image, -, line⟩ := container.kind_ne
  have leaf : isLeaf (.mk b children) = false := by
    unfold isLeaf
    simp [shape, container.text, image, line, Node.box]
  have content : contentOmissions (.mk b children) = flowOmissions (.mk b children) := by
    unfold contentOmissions
    simp [shape, container.text, image, line, Node.box]
  rw [warnings, leaf, content]
  rfl

theorem warnings_exchanged (changed : n.Exchanged P Q m) : warnings m = warnings n := by
  induction changed with
  | @own b children container =>
      have first := container.withFill P
      have second := container.withFill Q
      rw [warnings_container first, warnings_container second]
      rfl
  | @inside b before after n m container changed ih =>
      have some : (before ++ m :: after).isEmpty = (before ++ n :: after).isEmpty := by
        cases before <;> rfl
      have flow : flowOmissions (.mk b (before ++ m :: after)) =
          flowOmissions (.mk b (before ++ n :: after)) := by
        unfold flowOmissions
        simp only [Node.box, Node.children, some]
        rfl
      rw [warnings_container container, warnings_container container, flow]
      simp only [listWarnings_append, listWarnings, ih]

/-- Nothing more and nothing less is missing after a fill is exchanged. -/
theorem listWarnings_exchanged (changed : InOnePlace (Node.Exchanged P Q) forest forest') :
    listWarnings forest = listWarnings forest' := by
  obtain ⟨before, n, m, after, rfl, rfl, changed⟩ := changed
  simp only [listWarnings_append, listWarnings, warnings_exchanged changed]

variable {c : Char}

/-- Roots in a stack, unless there is only one. -/
theorem shifts_forestView {names : Bool} {before after : List Node}
    (own : Shifts same more (signs c) (view names n) (view names m)) :
    Shifts same more (signs c) (forestView names (before ++ n :: after))
      (forestView names (before ++ m :: after)) := by
  unfold forestView
  rw [List.map_append, List.map_append, List.map_cons, List.map_cons]
  generalize before.map (view names) = left
  generalize after.map (view names) = right
  have column := own.around (adds_group "VStack(alignment: .leading)" (adds_inList left right)
    fun v => by simp)
  cases left with
  | nil =>
      cases right with
      | nil => exact own
      | cons v rest => exact column
  | cons first others => cases others <;> exact column

/-- The code differs by the view of one of the roots. -/
theorem shifts_code (s : Settings) (solid : isBlank c = false)
    (changed : InOnePlace (Node.Exchanged P Q) forest forest')
    (own : ∀ {n m : Node}, n.Exchanged P Q m → Shifts same more (signs c)
      (view s.showLayerNames n) (view s.showLayerNames m)) :
    Shifts same more (tally c) (code s forest) (code s forest') := by
  have render : Adds (signs c) (tally c) (View.render 0) := adds_of_eq (tally_render solid 0)
  have types := Design.typeNames_exchanged changed
  obtain ⟨before, n, m, after, rfl, rfl, changed⟩ := changed
  unfold code
  split
  · exact (shifts_forestView (own changed)).around render
  · have structs (name : String) : Adds (tally c) (tally c) (viewStruct name) :=
      (Text.adds_enclose _ _).comp (adds_of_eq (Text.tally_indent solid 8))
    have short : (before.map fun n => (view s.showLayerNames n).render 0).length <
        (Design.typeNames (before ++ n :: after)).length := by
      rw [Design.length_typeNames]
      simp
    unfold app
    simp only [types, List.map_append, List.map_cons]
    have bodies := (adds_zipWith structs
      (after.map fun n => (view s.showLayerNames n).render 0) short).comp render
    have text := (((own changed).around bodies).around Text.adds_join).around
      (Text.adds_enclose "import SwiftUI\n\n" (contentHead ++ String.join
        ((Design.typeNames (before ++ n :: after)).map useLine) ++ appFoot))
    simpa only [String.append_assoc] using text

/-- What the target makes of a design changes when an opaque fill fades, unless it is an image. -/
theorem artifacts_fades (fades : P.Fades Q) (s : Settings)
    (changed : InOnePlace (Node.Exchanged P Q) forest forest') :
    artifacts s forest = artifacts s forest' ↔ P.fill.isImage = true := by
  obtain ⟨more, seen, fill⟩ := exists_shifts_fillLayer fades
  have solid : isBlank 'y' = false := by decide
  have code := shifts_code s solid changed fun changed =>
    shifts_view s.showLayerNames fill solid changed
  unfold artifacts
  simpa using code.eq_iff seen

end

end Handoff.Swift
