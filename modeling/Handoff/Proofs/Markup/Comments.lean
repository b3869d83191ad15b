import Handoff.Markup.Element
import Mathlib.Data.List.Chain

/-!
Comments in markup.

A comment goes up to the first mark that ends it, wherever that is, and in HTML two dashes next to
each other are not to be in it at all.  The name of a layer is made fit for both kinds of comment
in two steps: runs of dashes are cut to one, and then asterisks are kept away from slashes
(`Text.commentSafe`).  The second step puts spaces between characters and so leaves the first one
in force.

`Text.Apart` says of a text that it nowhere has two given characters next to each other.  The main
statement is `comment_closes`.
-/

namespace Handoff

namespace Text

/-! ## Neighbours -/

/-- The first character is nowhere right before the second. -/
def Apart (a b : Char) (cs : List Char) : Prop :=
  cs.IsChain fun x y => ¬(x = a ∧ y = b)

instance (a b : Char) (cs : List Char) : Decidable (Apart a b cs) :=
  inferInstanceAs (Decidable (cs.IsChain _))

section

variable {a b c : Char} {cs front back before after : List Char}

theorem apart_cons : Apart a b (c :: cs) ↔ (c = a → cs.head? ≠ some b) ∧ Apart a b cs := by
  rw [Apart, List.isChain_cons]
  refine and_congr ⟨fun rest same next => rest b next ⟨same, rfl⟩, fun rest y next => ?_⟩ Iff.rfl
  rintro ⟨same, rfl⟩
  exact rest same next

theorem Apart.tail (apart : Apart a b (c :: cs)) : Apart a b cs :=
  (apart_cons.mp apart).2

theorem apart_iff : Apart a b cs ↔ ∀ before after, cs ≠ before ++ a :: b :: after := by
  rw [Apart, List.isChain_iff_forall_rel_of_append_cons_cons]
  constructor
  · intro rest before after placed
    exact rest placed ⟨rfl, rfl⟩
  · rintro nowhere x y before after placed ⟨rfl, rfl⟩
    exact nowhere before after placed

/-- Two characters that are apart on both sides of a place where they are not are together there
and nowhere else. -/
theorem Apart.only (left : Apart a b (front ++ [a])) (right : Apart a b (b :: back))
    (placed : front ++ a :: b :: back = before ++ a :: b :: after) :
    before = front ∧ after = back := by
  rw [apart_iff] at left right
  rcases List.append_eq_append_iff.mp placed with ⟨more, rfl, rest⟩ | ⟨more, rfl, rest⟩
  · -- The other place is further on, and would be behind the first character of this one.
    rcases more with _ | ⟨x, more⟩
    · obtain ⟨-, rest⟩ := List.cons.inj rest
      exact ⟨List.append_nil _, (List.cons.inj rest).2.symm⟩
    · obtain ⟨-, rest⟩ := List.cons.inj rest
      exact absurd rest (right more after)
  · -- The other place is earlier, and would be before the last character of this one.
    rcases more with _ | ⟨x, _ | ⟨y, more⟩⟩
    · obtain ⟨-, rest⟩ := List.cons.inj rest
      exact ⟨(List.append_nil _).symm, (List.cons.inj rest).2⟩
    · obtain ⟨first, rest⟩ := List.cons.inj rest
      obtain ⟨second, -⟩ := List.cons.inj rest
      refine absurd ?_ (left before [])
      rw [← first, second, List.append_assoc, List.singleton_append]
    · obtain ⟨first, rest⟩ := List.cons.inj rest
      obtain ⟨second, -⟩ := List.cons.inj rest
      refine absurd ?_ (left before (more ++ [a]))
      rw [← first, ← second, List.append_assoc, List.cons_append, List.cons_append]

end

/-! ## The two steps -/

variable (cs : List Char)

theorem head?_collapseDashes : (collapseDashes cs).head? = cs.head? := by
  induction cs with
  | nil => rfl
  | cons c cs ih =>
      rw [collapseDashes]
      split
      · rename_i run
        rw [ih, run.2, List.head?_cons, run.1]
      · rfl

theorem head?_separateClose : (separateClose cs).head? = cs.head? := by
  cases cs with
  | nil => rfl
  | cons c cs =>
      rw [separateClose]
      split <;> rfl

/-- No dash is left next to another. -/
theorem apart_collapseDashes : Apart '-' '-' (collapseDashes cs) := by
  induction cs with
  | nil => exact .nil
  | cons c cs ih =>
      rw [collapseDashes]
      split
      · exact ih
      · rename_i single
        refine apart_cons.mpr ⟨fun dash next => single ⟨dash, ?_⟩, ih⟩
        rw [← head?_collapseDashes, next]

/-- No asterisk is left before a slash. -/
theorem apart_separateClose : Apart '*' '/' (separateClose cs) := by
  induction cs with
  | nil => exact .nil
  | cons c cs ih =>
      rw [separateClose]
      split
      · refine apart_cons.mpr ⟨fun _ => by simp, apart_cons.mpr ⟨fun space => ?_, ih⟩⟩
        cases space
      · rename_i open_
        refine apart_cons.mpr ⟨fun asterisk next => open_ ⟨asterisk, ?_⟩, ih⟩
        rw [← head?_separateClose, next]

variable {cs}

/-- Spaces bring no characters together. -/
theorem Apart.separateClose {a b : Char} (solid : a ≠ ' ' ∧ b ≠ ' ') (apart : Apart a b cs) :
    Apart a b (separateClose cs) := by
  induction cs with
  | nil => exact .nil
  | cons c cs ih =>
      rw [Text.separateClose]
      split
      · refine apart_cons.mpr ⟨fun _ next => solid.2 (Option.some.inj next).symm, ?_⟩
        exact apart_cons.mpr ⟨fun space => absurd space.symm solid.1, ih apart.tail⟩
      · refine apart_cons.mpr ⟨fun first next => ?_, ih apart.tail⟩
        rw [head?_separateClose] at next
        exact (apart_cons.mp apart).1 first next

theorem collapseDashes_eq_self_iff : collapseDashes cs = cs ↔ Apart '-' '-' cs := by
  constructor
  · intro kept
    rw [← kept]
    exact apart_collapseDashes cs
  · intro apart
    induction cs with
    | nil => rfl
    | cons c cs ih =>
        rw [collapseDashes, if_neg fun run => (apart_cons.mp apart).1 run.1 run.2, ih apart.tail]

theorem separateClose_eq_self (apart : Apart '*' '/' cs) : separateClose cs = cs := by
  induction cs with
  | nil => rfl
  | cons c cs ih =>
      rw [separateClose, if_neg fun closes => (apart_cons.mp apart).1 closes.1 closes.2,
        ih apart.tail]

/-! ## Names that are fit for comments -/

theorem toList_commentSafe (name : String) :
    (commentSafe name).toList = separateClose (collapseDashes name.toList) :=
  String.toList_ofList

theorem apart_dashes_commentSafe (name : String) : Apart '-' '-' (commentSafe name).toList := by
  rw [toList_commentSafe]
  exact (apart_collapseDashes _).separateClose (by simp)

theorem apart_close_commentSafe (name : String) : Apart '*' '/' (commentSafe name).toList := by
  rw [toList_commentSafe]
  exact apart_separateClose _

/-- A name stays as it is if it is fit for both kinds of comment, and only then. -/
theorem commentSafe_eq_self_iff (name : String) :
    commentSafe name = name ↔ Apart '-' '-' name.toList ∧ Apart '*' '/' name.toList := by
  constructor
  · intro kept
    rw [← kept]
    exact ⟨apart_dashes_commentSafe name, apart_close_commentSafe name⟩
  · rintro ⟨dashes, closes⟩
    rw [commentSafe, collapseDashes_eq_self_iff.mpr dashes, separateClose_eq_self closes,
      String.ofList_toList]

end Text

namespace Markup

open Text (Apart apart_cons apart_iff)

/-! ## Comments -/

/-- Characters that are apart in a name are apart between spaces. -/
theorem apart_spaced {a b : Char} (last : Char) {cs : List Char} (solid : a ≠ ' ' ∧ b ≠ ' ')
    (apart : Apart a b cs) : Apart a b (' ' :: (cs ++ [' ', last])) := by
  refine apart_cons.mpr ⟨fun space => absurd space.symm solid.1, List.isChain_append.mpr
    ⟨apart, apart_cons.mpr ⟨fun space => absurd space.symm solid.1, .singleton _⟩, ?_⟩⟩
  rintro x - y next ⟨-, rfl⟩
  exact solid.2 (Option.some.inj next).symm

theorem toList_comment_html (name : String) :
    (comment .html name).toList =
      '<' :: '!' :: '-' :: '-' :: ' ' :: ((Text.commentSafe name).toList ++ " -->".toList) := by
  rw [comment, String.toList_append, String.toList_append]
  rfl

theorem toList_comment_jsx (name : String) :
    (comment .jsx name).toList =
      '\x7b' :: '/' :: '*' :: ' ' :: ((Text.commentSafe name).toList ++ " */\x7d".toList) := by
  rw [comment, String.toList_append, String.toList_append]
  rfl

/-- The two dashes of an HTML comment are those that open it and those that end it. -/
theorem dashes_comment {name : String} {before after : List Char}
    (placed : (comment .html name).toList = before ++ '-' :: '-' :: after) :
    before = ['<', '!'] ∨ after = ['>'] := by
  rw [toList_comment_html] at placed
  rcases before with _ | ⟨x, _ | ⟨y, _ | ⟨z, _ | ⟨w, before⟩⟩⟩⟩
  · simp at placed
  · simp at placed
  · simp only [List.cons_append, List.nil_append, List.cons.injEq] at placed
    exact .inl (by rw [← placed.1, ← placed.2.1])
  · simp at placed
  · simp only [List.cons_append, List.cons.injEq] at placed
    have inside := apart_spaced '-' (by simp) (Text.apart_dashes_commentSafe name)
    have closing : Apart '-' '-' ['-', '>'] := by simp [Apart]
    have only := @Text.Apart.only '-' '-' (' ' :: ((Text.commentSafe name).toList ++ [' ']))
      ['>'] before after (by simpa using inside) closing (by simpa using placed.2.2.2.2)
    exact .inr only.2

/-- A JSX comment is closed where it ends. -/
theorem close_comment {name : String} {before after : List Char}
    (placed : (comment .jsx name).toList = before ++ '*' :: '/' :: after) : after = ['\x7d'] := by
  rw [toList_comment_jsx] at placed
  have inside := apart_spaced '*' (by simp) (Text.apart_close_commentSafe name)
  have opening : Apart '*' '/' ('\x7b' :: '/' :: '*' :: ' ' ::
      ((Text.commentSafe name).toList ++ [' ', '*'])) := by
    refine apart_cons.mpr ⟨by simp, apart_cons.mpr ⟨by simp, apart_cons.mpr ⟨by simp, inside⟩⟩⟩
  have closing : Apart '*' '/' ['/', '\x7d'] := by simp [Apart]
  have only := @Text.Apart.only '*' '/'
    ('\x7b' :: '/' :: '*' :: ' ' :: ((Text.commentSafe name).toList ++ [' ']))
    ['\x7d'] before after (by simpa using opening) closing (by simpa using placed)
  exact only.2

/-- How the comment of a layer is closed, in both kinds of markup. -/
structure Closes (name : String) : Prop where
  dashes : ∀ before after, (Text.commentSafe name).toList ≠ before ++ '-' :: '-' :: after
  asterisks : ∀ before after, (Text.commentSafe name).toList ≠ before ++ '*' :: '/' :: after
  html : comment .html name = "<!-- " ++ Text.commentSafe name ++ " -->"
  /-- The mark that ends the comment is at the end and nowhere else. -/
  html_end : ∀ before after,
    (comment .html name).toList = before ++ "-->".toList ++ after → after = []
  /-- There are no dashes next to each other but those of the two marks. -/
  html_dashes : ∀ before after,
    (comment .html name).toList = before ++ "--".toList ++ after →
      before = "<!".toList ∨ after = ">".toList
  jsx : comment .jsx name = "\x7b/* " ++ Text.commentSafe name ++ " */\x7d"
  jsx_end : ∀ before after,
    (comment .jsx name).toList = before ++ "*/".toList ++ after → after = "\x7d".toList
  idempotent : Text.commentSafe (Text.commentSafe name) = Text.commentSafe name
  /-- Only names that are not fit for a comment are changed. -/
  kept : Text.commentSafe name = name ↔
    (∀ before after, name.toList ≠ before ++ '-' :: '-' :: after) ∧
      ∀ before after, name.toList ≠ before ++ '*' :: '/' :: after

/-- Whatever a layer is called, its comment is closed at its end and not before. -/
theorem comment_closes (name : String) : Closes name := by
  have dashes := Text.apart_dashes_commentSafe name
  have closes := Text.apart_close_commentSafe name
  constructor
  case dashes => exact apart_iff.mp dashes
  case asterisks => exact apart_iff.mp closes
  case html => rfl
  case html_end =>
    intro before after placed
    rw [List.append_assoc] at placed
    rcases dashes_comment placed with rfl | last
    · -- Behind the dashes that open the comment there is a space.
      rw [toList_comment_html] at placed
      simp at placed
    · exact (List.cons.inj last).2
  case html_dashes =>
    intro before after placed
    rw [List.append_assoc] at placed
    exact dashes_comment placed
  case jsx => rfl
  case jsx_end =>
    intro before after placed
    rw [List.append_assoc] at placed
    exact close_comment placed
  case idempotent => exact (Text.commentSafe_eq_self_iff _).mpr ⟨dashes, closes⟩
  case kept => rw [Text.commentSafe_eq_self_iff, apart_iff, apart_iff]

/-- A name with runs of dashes and an asterisk before a slash. -/
example : comment .jsx "Hero --- v2 ----- */ final" = "\x7b/* Hero - v2 - * / final */\x7d" := by
  rfl

end Markup

end Handoff
