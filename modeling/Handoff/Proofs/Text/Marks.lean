import Handoff.Text.Escape

/-!
Texts in which marks stand for characters.

Where some characters mean something else, a text has marks in their places: entities, tags, or
groups of other characters.  `Marks.read` takes the marks of a table for what they stand for, from
the left.  If no mark is the beginning of another and no character that stays begins one
(`Marks.Fits`), the text that was written is read back (`Marks.Fits.read_escapeWith`).

`OnlyIn pieces c s` says that a character has no other place in a text than in the given pieces.
-/

namespace Handoff.Text

/-! ## Reading marks -/

/-- Marks with the characters that they stand for. -/
abbrev Marks := List (List Char × Char)

namespace Marks

/-- The mark at the front of a text. -/
def front? (marks : Marks) (cs : List Char) : Option (List Char × Char) :=
  marks.find? fun m => m.1.isPrefixOf cs

/-- A text with what its marks stand for in their places. -/
def readChars (marks : Marks) : List Char → List Char
  | [] => []
  | c :: cs =>
    match marks.front? (c :: cs) with
    | some (mark, meant) => meant :: readChars marks (cs.drop (mark.length - 1))
    | none => c :: readChars marks cs
termination_by cs => cs.length
decreasing_by
  all_goals
    rw [List.length_cons]
  · rw [List.length_drop]
    omega
  · omega

/-- A string with what its marks stand for in their places. -/
def read (marks : Marks) (s : String) : String := String.ofList (marks.readChars s.toList)

/-- What an escape table has to be for its marks to be read without doubt. -/
structure Fits (marks : Marks) (escape : Char → List Char) : Prop where
  filled : ∀ m ∈ marks, m.1 ≠ []
  /-- No mark begins with another. -/
  apart : ∀ m ∈ marks, ∀ n ∈ marks, m.1 <+: n.1 → m = n
  /-- A character has a mark of its own, or it stays and begins none. -/
  each : ∀ c, (escape c, c) ∈ marks ∨ escape c = [c] ∧ ∀ m ∈ marks, m.1.head? ≠ some c

namespace Fits

variable {marks : Marks} {escape : Char → List Char}

theorem front?_append (fits : marks.Fits escape) {m : List Char × Char} (member : m ∈ marks)
    (rest : List Char) : marks.front? (m.1 ++ rest) = some m := by
  have own : m.1.isPrefixOf (m.1 ++ rest) = true :=
    List.isPrefixOf_iff_prefix.mpr (List.prefix_append _ _)
  cases found : marks.front? (m.1 ++ rest) with
  | none => exact absurd own (List.find?_eq_none.mp found m member)
  | some n =>
      -- Of two marks at the same place one begins with the other.
      have among := List.mem_of_find?_eq_some found
      have passes := List.find?_some found
      have begins : n.1 <+: m.1 ++ rest := List.isPrefixOf_iff_prefix.mp passes
      rcases List.prefix_or_prefix_of_prefix begins (List.prefix_append _ _) with shorter | longer
      · rw [fits.apart n among m member shorter]
      · rw [fits.apart m member n among longer]

theorem front?_cons {c : Char} (begins : ∀ m ∈ marks, m.1.head? ≠ some c)
    (fits : marks.Fits escape) (cs : List Char) : marks.front? (c :: cs) = none := by
  refine List.find?_eq_none.mpr fun m member passes => ?_
  have filled := fits.filled m member
  obtain ⟨d, rest, same⟩ := List.exists_cons_of_ne_nil filled
  rw [same] at passes
  have first : d = c := (List.cons_prefix_cons.mp (List.isPrefixOf_iff_prefix.mp passes)).1
  exact begins m member (by rw [same, first, List.head?_cons])

theorem readChars_flatMap (fits : marks.Fits escape) (s : List Char) :
    marks.readChars (s.flatMap escape) = s := by
  induction s with
  | nil => rw [List.flatMap_nil, readChars]
  | cons c s ih =>
      rw [List.flatMap_cons]
      rcases fits.each c with member | ⟨plain, begins⟩
      · have front := fits.front?_append member (s.flatMap escape)
        obtain ⟨d, rest, same⟩ := List.exists_cons_of_ne_nil (fits.filled _ member)
        dsimp only at same front
        rw [same, List.cons_append] at front ⊢
        rw [readChars, front]
        simp only [List.length_cons, Nat.add_sub_cancel, List.drop_left, ih]
      · rw [plain, List.singleton_append, readChars, fits.front?_cons begins, ih]

/-- What was written with marks is read back. -/
theorem read_escapeWith (fits : marks.Fits escape) (s : String) :
    marks.read (escapeWith escape s) = s := by
  rw [read, escapeWith, String.toList_ofList, fits.readChars_flatMap, String.ofList_toList]

end Fits

end Marks

/-! ## Places of characters -/

variable {α β : Type} {escape : Char → List Char} {c : Char}

/-- What stands at a place of joined lists stands in one of them, and that stands around it. -/
theorem exists_of_flatMap_eq_append_cons {f : α → List β} {items : List α} {b : β}
    {before after : List β} (placed : items.flatMap f = before ++ b :: after) :
    ∃ a ∈ items, ∃ front back, f a = front ++ b :: back ∧ front <:+ before ∧ back <+: after := by
  induction items generalizing before with
  | nil => simp at placed
  | cons a items ih =>
      rw [List.flatMap_cons, List.append_eq_append_iff] at placed
      rcases placed with ⟨more, rfl, later⟩ | ⟨more, own, later⟩
      · obtain ⟨d, member, front, back, inside, left, right⟩ := ih later
        exact ⟨d, List.mem_cons_of_mem _ member, front, back, inside,
          left.trans (List.suffix_append _ _), right⟩
      · cases more with
        | nil =>
            obtain ⟨d, member, front, back, inside, left, right⟩ := @ih [] later.symm
            rw [List.suffix_nil] at left
            exact ⟨d, List.mem_cons_of_mem _ member, front, back, inside,
              left ▸ List.nil_suffix, right⟩
        | cons d more =>
            obtain ⟨rfl, rest⟩ := List.cons.inj later
            exact ⟨a, List.mem_cons_self, before, more, own, List.suffix_refl _,
              rest ▸ List.prefix_append _ _⟩

/-- Wherever a character stands in a text, one of the given pieces stands around it. -/
def OnlyIn (pieces : List String) (c : Char) (s : String) : Prop :=
  ∀ before after, s.toList = before ++ c :: after →
    ∃ piece ∈ pieces, ∃ front back,
      piece.toList = front ++ c :: back ∧ front <:+ before ∧ back <+: after

/-- A character of a written text stands where the table puts it. -/
theorem onlyIn_escapeWith {pieces : List String}
    (table : ∀ d, c ∈ escape d → String.ofList (escape d) ∈ pieces) (s : String) :
    OnlyIn pieces c (escapeWith escape s) := by
  intro before after placed
  rw [escapeWith, String.toList_ofList] at placed
  obtain ⟨d, -, front, back, inside, left, right⟩ := exists_of_flatMap_eq_append_cons placed
  have present : c ∈ escape d := inside ▸ List.mem_append_right _ List.mem_cons_self
  exact ⟨_, table d present, front, back, by rw [String.toList_ofList, inside], left, right⟩

/-- A character that the table puts nowhere is not in a written text. -/
theorem not_mem_escapeWith (table : ∀ d, c ∉ escape d) (s : String) :
    c ∉ (escapeWith escape s).toList := by
  rw [escapeWith, String.toList_ofList]
  intro member
  obtain ⟨d, -, inside⟩ := List.mem_flatMap.mp member
  exact table d inside

/-- To write a text with one table and then with another is to write it with both at once. -/
theorem escapeWith_escapeWith (first second : Char → List Char) (s : String) :
    escapeWith second (escapeWith first s) =
      escapeWith (fun c => (first c).flatMap second) s := by
  rw [escapeWith, escapeWith, escapeWith, String.toList_ofList, List.flatMap_assoc]

end Handoff.Text
