import Handoff.Target

/-!
What the two targets that write markup leave out of a design.

A declaration and a utility class are written by rules of their own, and so is what has neither.
Node by node it comes to the same (`Tailwind.omissions_eq_css`), for any node: the topmost
stroke is the last of its list for the one and the first of the reversed list for the other, and
shadows inside letters are picked out of the effects in two ways.

The main statement is `Framework.recordAll_tailwind`.
-/

namespace Handoff

open Design (Node)

namespace Tailwind

theorem strokeOmissions_eq_css (n : Node) : strokeOmissions n = Css.borderOmissions n := by
  unfold strokeOmissions Css.borderOmissions
  cases n.box.style.stroke with
  | none => rfl
  | some stroke =>
      simp only [Option.isNone_some, Bool.false_eq_true, if_false]
      rcases List.eq_nil_or_concat n.box.style.strokes with none | ⟨others, top, split⟩
      · rw [none]
        rfl
      · rw [split, List.concat_eq_append, List.reverse_concat, List.getLast?_concat]
        have several : (others ++ [top]).length > 1 ↔ others.reverse.isEmpty = false := by
          cases others <;> simp
        by_cases none : others.reverse.isEmpty = true
        · simp only [several, none, Bool.true_eq_false, if_true, if_false, Option.map_some]
          cases top.fill <;> rfl
        · simp only [several, none, Bool.false_eq_true, if_true, if_false, Option.map_some]
          cases top.fill <;> rfl

/-- What fills a node is left out by both targets or by neither. -/
theorem contentOmissions_eq_css (n : Node) : contentOmissions n = Css.contentOmissions n := by
  unfold contentOmissions Css.contentOmissions
  cases n.box.style.text with
  | some t =>
      show _ = Css.textOmissions n
      unfold Css.textOmissions
      rcases List.eq_nil_or_concat n.box.style.fills with none | ⟨others, top, split⟩
      · rw [none]
        rfl
      · rw [split, List.concat_eq_append, List.reverse_concat, List.getLast?_concat]
        obtain ⟨fill, opacity, blendMode⟩ := top
        cases fill <;> rfl
  | none =>
      have strokes := strokeOmissions_eq_css n
      rcases kind : n.box.kind with _ | _ | shape | _ | _ | _
      case vector => cases shape <;> first | rfl | exact strokes
      case image => rfl
      all_goals exact strokes

theorem effectOmissions_eq_css (n : Node) :
    (if n.box.kind = .text then
      (n.box.style.effects.filter isInnerShadow).map fun _ => Reason.textInnerShadow
    else []) = Css.effectOmissions n := by
  unfold Css.effectOmissions
  by_cases text : n.box.kind = .text
  · simp only [text, if_true]
    induction n.box.style.effects with
    | nil => rfl
    | cons effect rest ih =>
        cases effect with
        | innerShadow shadow =>
            rw [List.filter_cons_of_pos rfl, List.map_cons, ih]
            rfl
        | dropShadow | layerBlur | backgroundBlur =>
            rw [List.filter_cons_of_neg Bool.false_ne_true, ih]
            rfl
  · rw [if_neg text]
    refine (List.filterMap_eq_nil_iff.mpr fun effect _ => ?_).symm
    cases effect <;> simp [text]

/-- Of a node the same has no class that has no declaration, and in the same order. -/
theorem omissions_eq_css : omissions = Css.omissions := by
  funext n
  rw [omissions, contentOmissions_eq_css, effectOmissions_eq_css, Css.omissions]

end Tailwind

/-- The two targets that write markup raise the same warnings about a design, one for one, and
so leave the same log behind.  Nothing in the settings has a say in that. -/
theorem Framework.recordAll_tailwind (s t : Settings) (log : List Warning) (forest : List Node) :
    ({ s with framework := .html } : Settings).framework.warnings forest =
        ({ t with framework := .tailwind } : Settings).framework.warnings forest ∧
      Warning.recordAll log
          (({ s with framework := .html } : Settings).framework.warnings forest) =
        Warning.recordAll log
          (({ t with framework := .tailwind } : Settings).framework.warnings forest) := by
  have raised : Html.warnings forest = Tailwind.warnings forest := by
    rw [Html.warnings, Tailwind.warnings, Tailwind.omissions_eq_css]
  exact ⟨raised, congrArg (Warning.recordAll log) raised⟩

end Handoff
