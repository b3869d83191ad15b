import Handoff.Css.Style
import Handoff.Design.Style
import Handoff.Tailwind.Node
import Handoff.Text.Lines
import Mathlib.Algebra.Order.BigOperators.Group.List
import Mathlib.Algebra.Order.Group.Nat
import Mathlib.Data.List.Basic

/-!
What letter case leaves alone, and which words title case raises.

The tables of letter case have no character below the capital letters, neither among those that
they map nor among those that they map to.  So such a character is in a text after a case transform
exactly if it was there before (`mem_apply_iff`).

A character begins a word if it separates no words itself and nothing or a separator stands before
it.  `titled` raises these characters to upper case and keeps all others.  Title case takes spaces
for the only separators.  Where words are separated by any white space, as they are where a style
sheet raises them, it misses the words that begin after a line break or a tab, and nothing else
(`raisesWords_apply`).
-/

namespace Handoff.Text

variable {bound code : Nat} {c d : Char} {cs : List Char}

/-- All that is mapped, and all that it is mapped to, is at or above a bound. -/
def KeepsAbove (bound : Nat) (runs : List CaseRun) (expansions : List (Nat × List Nat)) : Prop :=
  (∀ r ∈ runs, bound ≤ r.first ∧ (bound : Int) ≤ r.first + r.offset) ∧
    ∀ e ∈ expansions, bound ≤ e.1 ∧ ∀ code ∈ e.2, bound ≤ code

instance (bound : Nat) (runs : List CaseRun) (expansions : List (Nat × List Nat)) :
    Decidable (KeepsAbove bound runs expansions) :=
  inferInstanceAs (Decidable (_ ∧ _))

/-- A character below a bound, other than the null that stands for what is no character. -/
def IsBelow (bound : Nat) (d : Char) : Prop := 0 < d.toNat ∧ d.toNat < bound

instance (bound : Nat) (d : Char) : Decidable (IsBelow bound d) :=
  inferInstanceAs (Decidable (_ ∧ _))

theorem IsBelow.ofNat_ne (below : IsBelow bound d) (above : bound ≤ code) :
    Char.ofNat code ≠ d := by
  rintro rfl
  obtain ⟨positive, small⟩ := below
  by_cases valid : code.isValidChar
  · rw [Char.ofNat, dif_pos valid] at small
    exact absurd small (Nat.not_lt.mpr above)
  · rw [Char.ofNat, dif_neg valid] at positive
    exact absurd positive (by decide)

/-- A character below all that is mapped is where it was, and nowhere else. -/
theorem mem_mapCase_iff {runs : List CaseRun} {expansions : List (Nat × List Nat)}
    (above : KeepsAbove bound runs expansions) (below : IsBelow bound d) :
    d ∈ mapCase runs expansions c ↔ c = d := by
  obtain ⟨runsAbove, expansionsAbove⟩ := above
  unfold mapCase
  split
  · rename_i image mapped
    obtain ⟨r, member, own⟩ := List.exists_of_findSome?_eq_some mapped
    obtain ⟨first, moved⟩ := runsAbove r member
    unfold CaseRun.image? at own
    split at own
    · rename_i covered
      cases own
      have other : ofCode (c.toNat + r.offset) ≠ d := below.ofNat_ne (by omega)
      have kept : c ≠ d := by
        rintro rfl
        exact absurd below.2 (by omega)
      exact iff_of_false (fun here => other (List.mem_singleton.mp here).symm) kept
    · cases own
  · split
    · rename_i codes listed
      obtain ⟨before, after, split, -⟩ := List.lookup_eq_some_iff.mp listed
      obtain ⟨source, images⟩ := expansionsAbove (c.toNat, codes)
        (split ▸ List.mem_append_right before List.mem_cons_self)
      have kept : c ≠ d := by
        rintro rfl
        exact absurd below.2 (Nat.not_lt.mpr source)
      refine iff_of_false (fun here => ?_) kept
      obtain ⟨code, among, same⟩ := List.mem_map.mp here
      exact below.ofNat_ne (images code among) same
    · rw [List.mem_singleton, eq_comm]

/-- The lowest code of a capital letter. -/
def capitals : Nat := 0x41

theorem mem_upperChar_iff (below : IsBelow capitals d) : d ∈ upperChar c ↔ c = d :=
  mem_mapCase_iff (by decide +kernel) below

theorem mem_lowerIn_iff (below : IsBelow capitals d) (before after : List Char) :
    d ∈ lowerIn before c after ↔ c = d := by
  have sigmas : ∀ s ∈ ['Σ', 'ς', 'σ'], s ≠ d := by
    rintro s member rfl
    simp only [List.mem_cons, List.not_mem_nil, or_false] at member
    rcases member with rfl | rfl | rfl <;> exact absurd below.2 (by decide)
  unfold lowerIn
  split
  · rename_i sigma
    rw [sigma]
    refine iff_of_false ?_ (sigmas 'Σ' (by decide))
    split
    · exact fun here => sigmas 'ς' (by decide) (List.mem_singleton.mp here).symm
    · exact fun here => sigmas 'σ' (by decide) (List.mem_singleton.mp here).symm
  · exact mem_mapCase_iff (by decide +kernel) below

theorem mem_lowerFrom_iff (below : IsBelow capitals d) (before : List Char) :
    d ∈ lowerFrom before cs ↔ d ∈ cs := by
  induction cs generalizing before with
  | nil => exact Iff.rfl
  | cons c cs ih =>
      rw [lowerFrom, List.mem_append, mem_lowerIn_iff below, ih, List.mem_cons, eq_comm]

theorem mem_capitalizeFrom_iff (below : IsBelow capitals d) (atStart : Bool) :
    d ∈ capitalizeFrom atStart cs ↔ d ∈ cs := by
  induction cs generalizing atStart with
  | nil => exact Iff.rfl
  | cons c cs ih =>
      have first : d ∈ (if atStart then upperChar c else [c]) ↔ c = d := by
        split
        · exact mem_upperChar_iff below
        · rw [List.mem_singleton, eq_comm]
      rw [capitalizeFrom, List.mem_append, first, ih, List.mem_cons, eq_comm]

/-- What is below the letters is in a text whatever its case is made. -/
theorem mem_apply_iff (below : IsBelow capitals d) (letterCase : Design.TextCase) (text : String) :
    d ∈ (letterCase.apply text).toList ↔ d ∈ text.toList := by
  cases letterCase with
  | original => exact Iff.rfl
  | upper =>
      simp only [Design.TextCase.apply, upper, upperChars, String.toList_ofList, List.mem_flatMap,
        mem_upperChar_iff below, exists_eq_right]
  | lower =>
      rw [Design.TextCase.apply, lower, String.toList_ofList]
      exact mem_lowerFrom_iff below []
  | title =>
      rw [Design.TextCase.apply, capitalizeWords, String.toList_ofList]
      exact mem_capitalizeFrom_iff below true

end Handoff.Text

/-! ## Title case -/

namespace Handoff.Text

/-- The characters of a text, each with the one before it. -/
def placesAfter (previous : Option Char) : List Char → List (Option Char × Char)
  | [] => []
  | c :: cs => (previous, c) :: placesAfter (some c) cs

/-- Whether a character begins a word. -/
def begins (separates : Char → Bool) (place : Option Char × Char) : Bool :=
  !separates place.2 && place.1.all separates

/-- A character in upper case if it begins a word. -/
def raised (separates : Char → Bool) (place : Option Char × Char) : List Char :=
  if begins separates place then upperChar place.2 else [place.2]

/-- A text with the first character of every word in upper case and all else as it was. -/
def titled (separates : Char → Bool) (cs : List Char) : List Char :=
  (placesAfter none cs).flatMap (raised separates)

/-! ## Upper case -/

theorem length_upperChar_pos (c : Char) : 0 < (upperChar c).length := by
  have expanded : ∀ e ∈ upperExpansions, 0 < e.2.length := by decide +kernel
  unfold upperChar mapCase
  split
  · exact Nat.one_pos
  · split
    · rename_i codes listed
      obtain ⟨before, after, split, -⟩ := List.lookup_eq_some_iff.mp listed
      rw [List.length_map]
      exact expanded _ (split ▸ List.mem_append_right before List.mem_cons_self)
    · exact Nat.one_pos

/-- The codes of white space. -/
def blankCodes : List Nat :=
  List.range' 0x9 5 ++ [0x20, 0x85, 0xA0, 0x1680] ++ List.range' 0x2000 11 ++
    [0x2028, 0x2029, 0x202F, 0x205F, 0x3000]

theorem mem_blankCodes_iff (c : Char) : c.toNat ∈ blankCodes ↔ isBlank c = true := by
  simp only [blankCodes, isBlank, List.mem_append, List.mem_range'_1, List.mem_cons,
    List.not_mem_nil, or_false, Bool.or_eq_true, Bool.and_eq_true, decide_eq_true_eq, beq_iff_eq]
  omega

/-- White space has no upper case. -/
theorem upperChar_of_isBlank {c : Char} (blank : isBlank c = true) : upperChar c = [c] := by
  have codes : ∀ code ∈ blankCodes, upperChar (Char.ofNat code) = [Char.ofNat code] := by
    decide +kernel
  have own := codes c.toNat ((mem_blankCodes_iff c).mpr blank)
  rwa [Char.ofNat_toNat] at own

theorem isBlank_of_beq_space {c : Char} (space : (c == ' ') = true) : isBlank c = true := by
  rw [beq_iff_eq.mp space]
  decide

/-! ## Words between spaces -/

theorem capitalizeFrom_eq (previous : Option Char) (cs : List Char) :
    capitalizeFrom (previous.all (· == ' ')) cs =
      (placesAfter previous cs).flatMap (raised (· == ' ')) := by
  induction cs generalizing previous with
  | nil => rfl
  | cons c cs ih =>
      have own : (if previous.all (· == ' ') then upperChar c else [c]) =
          raised (· == ' ') (previous, c) := by
        unfold raised begins
        by_cases space : (c == ' ') = true
        · have same := upperChar_of_isBlank (isBlank_of_beq_space space)
          simp [same]
        · simp [space]
      rw [capitalizeFrom, own, placesAfter, List.flatMap_cons]
      exact congrArg _ (ih (some c))

theorem toList_apply_title (text : String) :
    (Design.TextCase.title.apply text).toList = titled (· == ' ') text.toList := by
  rw [Design.TextCase.apply, capitalizeWords, String.toList_ofList]
  exact capitalizeFrom_eq none text.toList

/-! ## Words between white space -/

/-- What begins no word between white space is kept. -/
theorem raised_of_not_begins {place : Option Char × Char}
    (inner : begins isBlank place = false) : raised (· == ' ') place = [place.2] := by
  unfold raised
  split
  · rename_i first
    rw [begins, Bool.and_eq_true] at first
    obtain ⟨-, before⟩ := first
    have blankBefore : place.1.all isBlank = true := by
      cases previous : place.1 with
      | none => rfl
      | some d =>
          rw [previous] at before
          exact isBlank_of_beq_space before
    rw [begins, blankBefore, Bool.and_true, Bool.not_eq_false'] at inner
    exact upperChar_of_isBlank inner
  · rfl

theorem raised_of_begins {place : Option Char × Char} (first : begins isBlank place = true) :
    raised isBlank place = upperChar place.2 :=
  if_pos first

/-- A word that begins after a space is raised, one that begins after other white space is not. -/
theorem raised_eq_iff (place : Option Char × Char) :
    raised (· == ' ') place = raised isBlank place ↔
      (begins isBlank place = true → begins (· == ' ') place = true ∨
        upperChar place.2 = [place.2]) := by
  cases first : begins isBlank place with
  | false =>
      rw [raised_of_not_begins first, raised, first]
      exact iff_of_true rfl nofun
  | true =>
      rw [raised_of_begins first, raised]
      split
      · rename_i spaced
        exact iff_of_true rfl fun _ => .inl spaced
      · rename_i missed
        rw [or_iff_right missed, eq_comm]
        exact ⟨fun same _ => same, fun same => same rfl⟩

theorem length_raised_le (place : Option Char × Char) :
    (raised (· == ' ') place).length ≤ (raised isBlank place).length := by
  cases first : begins isBlank place with
  | false =>
      rw [raised_of_not_begins first, raised, first, if_neg Bool.false_ne_true]
  | true =>
      rw [raised_of_begins first, raised]
      split
      · exact Nat.le_refl _
      · exact length_upperChar_pos place.2

/-- If no part of a text is longer than its counterpart, the texts agree only part by part. -/
theorem flatMap_eq_iff_of_length_le {α β : Type} {f g : α → List β} {l : List α}
    (le : ∀ a ∈ l, (f a).length ≤ (g a).length) :
    l.flatMap f = l.flatMap g ↔ ∀ a ∈ l, f a = g a := by
  refine ⟨fun same => ?_, List.flatMap_congr⟩
  induction l with
  | nil => exact List.forall_mem_nil _
  | cons a l ih =>
      obtain ⟨first, rest⟩ := List.forall_mem_cons.mp le
      have shorter : (l.flatMap f).length ≤ (l.flatMap g).length := by
        rw [List.length_flatMap, List.length_flatMap]
        exact List.sum_le_sum rest
      rw [List.flatMap_cons, List.flatMap_cons] at same
      have total := congrArg List.length same
      rw [List.length_append, List.length_append] at total
      obtain ⟨own, others⟩ := List.append_inj same (by omega)
      exact List.forall_mem_cons.mpr ⟨own, ih rest others⟩

/-- How title case raises the words of a text, next to a style sheet that raises them. -/
structure RaisesWords (text : String) : Prop where
  /-- Words between spaces begin in upper case, and nothing else is changed. -/
  spaced : (Design.TextCase.title.apply text).toList = titled (· == ' ') text.toList
  /-- White space, and what does not come first in a word, is kept. -/
  kept : ∀ place ∈ placesAfter none text.toList, begins isBlank place = false →
    raised (· == ' ') place = [place.2]
  /-- The words between white space all begin in upper case just if those that begin after other
  white space than a space have none. -/
  blank_iff : (Design.TextCase.title.apply text).toList = titled isBlank text.toList ↔
    ∀ place ∈ placesAfter none text.toList, begins isBlank place = true →
      begins (· == ' ') place = true ∨ upperChar place.2 = [place.2]
  /-- Markup leaves a text of that case as it is and has the style sheet raise its words. -/
  delegated : ∀ (t : Design.Typography) (rounding : Bool), t.textCase = .title →
    ⟨"text-transform", "capitalize"⟩ ∈ Css.typography t ∧
      .bare "capitalize" ∈ Tailwind.typography rounding t

/-- Title case raises all words that begin at the start or after a space, and misses those that
begin after a tab or a line break. -/
theorem raisesWords_apply (text : String) : RaisesWords text where
  spaced := toList_apply_title text
  kept _ _ := raised_of_not_begins
  blank_iff := by
    rw [toList_apply_title, titled, titled,
      flatMap_eq_iff_of_length_le fun place _ => length_raised_le place]
    exact forall₂_congr fun place _ => raised_eq_iff place
  delegated t rounding title := by
    constructor
    · simp [Css.typography, Css.optional, Css.textTransform?, title]
    · simp [Tailwind.typography, Tailwind.textCase, title]

/-- The second line of a text does not begin in upper case. -/
theorem not_titled_lines :
    ¬∀ text : String, (Design.TextCase.title.apply text).toList = titled isBlank text.toList := by
  intro all
  have lines := all "one\ntwo"
  rw [toList_apply_title] at lines
  exact absurd lines (by decide +kernel)

end Handoff.Text
