import Handoff.Proofs.Text.Margins
import Handoff.Swift.View

/-!
How views are printed.

A view is indented by the same number of spaces as all of it, so it is printed further to the right
as it is with a margin in front of every line (`render_add`).  All that is asked for is that its
comments and the expressions it is made by are on one line; the lines of a modifier are moved by
the printer.

`View.Over` goes through a view down to the texts that it is printed with.
-/

namespace Handoff.Swift

open Text (OneLine FirmLines Firm shifted pushed spaces)

namespace View

/-- All comments in a view, all expressions that make it and the views in it, and all modifiers are
of these kinds. -/
inductive Over (comments heads modifiers : String → Prop) : View → Prop
  | mk {comment : Option String} {head : String} {children : List View} {applied : List String}
      (label : ∀ text, comment = some text → comments text) (own : heads head)
      (inside : ∀ v ∈ children, Over comments heads modifiers v)
      (after : ∀ m ∈ applied, modifiers m) :
      Over comments heads modifiers (.mk comment head children applied)

section

variable {comments heads kinds : String → Prop} {v : View} {views : List View} {text : String}
  {later : List String}

theorem Over.mono {others wider looser : String → Prop} (each : v.Over comments heads kinds)
    (labels : ∀ s, comments s → others s) (makers : ∀ s, heads s → wider s)
    (applied : ∀ s, kinds s → looser s) : v.Over others wider looser := by
  induction each with
  | mk label own _ after ih =>
      exact .mk (fun text same => labels text (label text same)) (makers _ own) ih
        fun m member => applied m (after m member)

@[simp] theorem over_leaf : (leaf text).Over comments heads kinds ↔ heads text := by
  constructor
  · rintro ⟨⟩
    assumption
  · exact fun own => .mk nofun own (List.forall_mem_nil _) (List.forall_mem_nil _)

@[simp] theorem over_group : (group text views).Over comments heads kinds ↔
    heads text ∧ ∀ v ∈ views, v.Over comments heads kinds := by
  constructor
  · rintro ⟨⟩
    exact ⟨‹_›, ‹_›⟩
  · exact fun ⟨own, inside⟩ => .mk nofun own inside (List.forall_mem_nil _)

theorem Over.modified (each : v.Over comments heads kinds) (more : ∀ m ∈ later, kinds m) :
    (v.modified later).Over comments heads kinds := by
  obtain ⟨label, own, inside, after⟩ := each
  exact .mk label own inside (List.forall_mem_append.mpr ⟨after, more⟩)

theorem Over.commented (each : v.Over comments heads kinds) {comment : Option String}
    (label : ∀ text, comment = some text → comments text) :
    (v.commented comment).Over comments heads kinds := by
  obtain ⟨-, own, inside, after⟩ := each
  exact .mk label own inside after

end

/-! ## Margins -/

section

variable {v : View} {views : List View} {n : Nat}

theorem pushed_modifierText (n m : Nat) (modifier : String) :
    pushed n (modifierText m modifier) = modifierText (m + n) modifier := by
  have point : OneLine (spaces m ++ ".") :=
    Text.oneLine_append.mpr ⟨Text.oneLine_spaces m, by decide⟩
  have own : modifierText m modifier = "\n" ++ (spaces m ++ ".") ++ pushed m modifier := by
    rw [modifierText, pushed]
    simp only [String.append_assoc]
  rw [own, Text.pushed_append, Text.pushed_append, Text.pushed_feed, Text.pushed_of_oneLine point,
    Text.pushed_pushed, modifierText, pushed, Nat.add_comm m n, Text.spaces_add]
  simp only [String.append_assoc]

theorem pushed_modifierTexts (n m : Nat) (modifiers : List String) :
    pushed n (String.join (modifiers.map (modifierText m))) =
      String.join (modifiers.map (modifierText (m + n))) := by
  induction modifiers with
  | nil => rfl
  | cons modifier rest ih =>
      rw [List.map_cons, String.join_cons, Text.pushed_append, pushed_modifierText, ih,
        List.map_cons, String.join_cons]

/-- The margin in front of the line below views is behind the line feed above it. -/
theorem pushed_renderList (each : ∀ v ∈ views, ∀ m, v.render (m + n) = shifted n (v.render m))
    (m : Nat) :
    spaces n ++ pushed n (renderList m views) = renderList (m + n) views ++ spaces n := by
  induction views with
  | nil =>
      rw [renderList, renderList, String.empty_append]
      exact String.append_empty
  | cons v rest ih =>
      obtain ⟨own, others⟩ := List.forall_mem_cons.mp each
      have later := ih others
      rw [renderList, renderList, own m, Text.shifted_eq_pushed, Text.pushed_append,
        Text.pushed_append, Text.pushed_feed]
      simp only [String.append_assoc]
      rw [later]

/-- The views in a view between braces, if there are any. -/
def insideText (indent : Nat) (children : List View) : String :=
  match children with
  | [] => ""
  | child :: rest =>
    " \x7b\n" ++ renderList (indent + step) (child :: rest) ++ spaces indent ++ "\x7d"

theorem render_eq (indent : Nat) (v : View) : v.render indent =
    commentText indent v.comment ++ spaces indent ++ v.head ++ insideText indent v.children ++
      String.join (v.modifiers.map (modifierText (indent + step))) := by
  obtain ⟨comment, head, children, modifiers⟩ := v
  cases children <;> rw [render] <;> rfl

theorem pushed_insideText (each : ∀ v ∈ views, ∀ m, v.render (m + n) = shifted n (v.render m))
    (m : Nat) : pushed n (insideText m views) = insideText (m + n) views := by
  cases views with
  | nil => rfl
  | cons v rest =>
      have opening : " \x7b\n" = " \x7b" ++ "\n" := rfl
      have first : pushed n " \x7b" = " \x7b" := Text.pushed_of_oneLine (by decide)
      have last : pushed n "\x7d" = "\x7d" := Text.pushed_of_oneLine (by decide)
      have blank : pushed n (spaces m) = spaces m := Text.pushed_of_oneLine (Text.oneLine_spaces m)
      have inner : ∀ back, spaces n ++ (pushed n (renderList (m + step) (v :: rest)) ++ back) =
          renderList (m + step + n) (v :: rest) ++ (spaces n ++ back) := by
        intro back
        rw [← String.append_assoc, pushed_renderList each, String.append_assoc]
      rw [insideText, insideText, opening]
      simp only [Text.pushed_append, Text.pushed_feed, first, last, blank, String.append_assoc]
      rw [inner, Nat.add_right_comm m step n, Nat.add_comm m n, Text.spaces_add n m,
        String.append_assoc]

/-- A view that is printed further to the right has a margin in front of every line. -/
theorem render_add (each : v.Over OneLine OneLine fun _ => True) (n m : Nat) :
    v.render (m + n) = shifted n (v.render m) := by
  induction each generalizing m with
  | @mk comment head children modifiers label own _ _ ih =>
      have heading : pushed n head = head := Text.pushed_of_oneLine own
      have blank : pushed n (spaces m) = spaces m := Text.pushed_of_oneLine (Text.oneLine_spaces m)
      have margin : spaces (m + n) = spaces n ++ spaces m := by
        rw [Nat.add_comm, Text.spaces_add]
      have front : commentText (m + n) comment ++ spaces n =
          spaces n ++ pushed n (commentText m comment) := by
        cases comment with
        | none =>
            rw [commentText, commentText, String.empty_append]
            exact String.append_empty.symm
        | some text =>
            have line : OneLine (spaces m ++ "// " ++ text) := by
              simp only [Text.oneLine_append, Text.oneLine_spaces, label text rfl, true_and]
              decide
            rw [commentText, commentText, Text.pushed_append, Text.pushed_of_oneLine line,
              Text.pushed_feed, margin]
            simp only [String.append_assoc]
      have inside := pushed_insideText ih m
      have applied := pushed_modifierTexts n (m + step) modifiers
      rw [Nat.add_right_comm m step n] at applied
      rw [render_eq, render_eq, Text.shifted_eq_pushed]
      dsimp only [View.comment, View.head, View.children, View.modifiers]
      simp only [Text.pushed_append, heading, blank, inside, applied, margin]
      simp only [← String.append_assoc, front]

end

/-! ## Firm lines -/

section

variable {v : View} {views : List View} {text : String} {modifiers : List String}

theorem firmLines_renderList (each : ∀ v ∈ views, ∀ m, FirmLines (v.render m)) (m : Nat)
    (behind : FirmLines text) : FirmLines (renderList m views ++ text) := by
  induction views with
  | nil =>
      rw [renderList, String.empty_append]
      exact behind
  | cons v rest ih =>
      obtain ⟨own, others⟩ := List.forall_mem_cons.mp each
      have later := (own m).nextLine (ih others)
      rw [renderList, String.append_assoc]
      exact later

theorem firmLines_modifiers (front : FirmLines text) (each : ∀ s ∈ modifiers, FirmLines s)
    (m : Nat) : FirmLines (text ++ String.join (modifiers.map (modifierText m))) := by
  induction modifiers generalizing text with
  | nil =>
      rw [List.map_nil, String.join_nil, String.append_empty]
      exact front
  | cons modifier rest ih =>
      obtain ⟨own, others⟩ := List.forall_mem_cons.mp each
      have point : OneLine (spaces m ++ ".") :=
        Text.oneLine_append.mpr ⟨Text.oneLine_spaces m, by decide⟩
      have line := front.nextLine ((own.pushed m).after point)
      have split : text ++ modifierText m modifier =
          text ++ "\n" ++ (spaces m ++ "." ++ pushed m modifier) := by
        rw [modifierText, pushed]
        simp only [String.append_assoc]
      rw [List.map_cons, String.join_cons, ← String.append_assoc, split]
      exact ih line others

/-- Every line of a view ends with something visible, if those of its parts do and there are no
comments. -/
theorem firmLines_render (each : v.Over (fun _ => False)
    (fun head => OneLine head ∧ Firm head.toList) FirmLines) (m : Nat) :
    FirmLines (v.render m) := by
  induction each generalizing m with
  | @mk comment head children modifiers label own _ after ih =>
      obtain ⟨line, firm⟩ := own
      have bare : comment = none := Option.eq_none_iff_forall_ne_some.mpr label
      have blank := Text.oneLine_spaces m
      have heading : FirmLines (spaces m ++ head) :=
        .after blank (.of_oneLine line firm)
      have braces : FirmLines (spaces m ++ head ++ insideText m children) := by
        cases children with
        | nil =>
            rw [insideText, String.append_empty]
            exact heading
        | cons child rest =>
            have opened := heading.before (by decide : OneLine " \x7b") (by decide)
            have closing : FirmLines (spaces m ++ "\x7d") :=
              .after blank (.of_oneLine (by decide) (by decide))
            have whole := opened.nextLine (firmLines_renderList ih (m + step) closing)
            have opening : " \x7b\n" = " \x7b" ++ "\n" := rfl
            rw [insideText, opening]
            simp only [String.append_assoc] at whole ⊢
            exact whole
      rw [render_eq]
      dsimp only [View.comment, View.head, View.children, View.modifiers]
      rw [bare, commentText, String.empty_append]
      exact firmLines_modifiers braces after (m + step)

end

end View

end Handoff.Swift
