import Handoff.Proofs.Palette.Lightness
import Handoff.Proofs.Decimal.Unpacked
import Handoff.Proofs.UsedColors

/-!
The entry of a palette that a color is called by.

The search goes through all entries once and keeps the first of those that are nearest so far
(`FirstNearest`, `foldl_nearer`).  This needs that distances are in a linear order: none of them is
NaN.  A color that has the bytes of an entry is at distance zero from it and from no entry that is
another color, so it is called by an entry of its own.

The main statement is `findsNearest`.
-/

namespace Handoff

/-- Colors of the same bytes, alpha aside. -/
def Color.SameRgb (c d : Color) : Prop :=
  c.bytes.r = d.bytes.r ∧ c.bytes.g = d.bytes.g ∧ c.bytes.b = d.bytes.b

instance Color.decidableSameRgb (c d : Color) : Decidable (c.SameRgb d) :=
  inferInstanceAs (Decidable (_ ∧ _))

namespace Palette

open Decimal

/-- How far an entry is from a color that is rounded to bytes. -/
def Swatch.distance (s : Swatch) (c : Color) : Float32 := c.rounded.deltaE s.color

/-- An entry whose distance is a number. -/
structure Swatch.Measured (s : Swatch) (c : Color) : Prop where
  lab : s.lab = s.color.lab
  number : (s.distance c).toModel.unpack ≠ .notANumber

/-! ## The search -/

/-- The first entry of a list that is as near to a color as any of them. -/
def FirstNearest (c : Color) (swatches : List Swatch) (s : Swatch) : Prop :=
  ∃ before after, swatches = before ++ s :: after ∧
    (∀ t ∈ before, s.distance c < t.distance c) ∧ ∀ t ∈ after, s.distance c ≤ t.distance c

section

variable {c : Color} {s t : Swatch} {seen : List Swatch}

theorem FirstNearest.mem (first : FirstNearest c seen s) : s ∈ seen := by
  obtain ⟨before, after, rfl, -, -⟩ := first
  exact List.mem_append_right _ List.mem_cons_self

theorem FirstNearest.rank_le (first : FirstNearest c seen s)
    (measured : ∀ u ∈ seen, u.Measured c) (member : t ∈ seen) :
    rank (s.distance c).toModel.unpack ≤ rank (t.distance c).toModel.unpack := by
  have hs := (measured s first.mem).number
  have ht := (measured t member).number
  obtain ⟨before, after, rfl, less, le⟩ := first
  rcases List.mem_append.mp member with earlier | later
  · exact ((single_lt_iff_rank hs ht).mp (less t earlier)).le
  · rcases List.mem_cons.mp later with rfl | later
    · exact le_rfl
    · exact (single_le_iff_rank hs ht).mp (le t later)

/-- The search goes on by one entry. -/
theorem FirstNearest.next (first : FirstNearest c seen s)
    (measured : ∀ u ∈ seen ++ [t], u.Measured c) :
    ∃ s', nearer c.rounded.lab (some (s, s.distance c)) t = some (s', s'.distance c) ∧
      FirstNearest c (seen ++ [t]) s' := by
  have hseen : ∀ u ∈ seen, u.Measured c := fun u member =>
    measured u (List.mem_append_left _ member)
  have ht := measured t (List.mem_append_right _ (List.mem_singleton_self t))
  have distance : c.rounded.lab.distance t.lab = t.distance c := by
    rw [ht.lab]
    rfl
  by_cases less : t.distance c < s.distance c
  · refine ⟨t, ?_, seen, [], rfl, fun u member => ?_, fun u member => ?_⟩
    · rw [nearer, distance]
      exact if_pos less
    · have hs := (hseen s first.mem).number
      rw [single_lt_iff_rank ht.number hs] at less
      exact (single_lt_iff_rank ht.number (hseen u member).number).mpr
        (less.trans_le (first.rank_le hseen member))
    · cases member
  · have hs := (hseen s first.mem).number
    refine ⟨s, ?_, ?_⟩
    · rw [nearer, distance]
      exact if_neg less
    · obtain ⟨before, after, rfl, nearest, least⟩ := first
      refine ⟨before, after ++ [t], by simp, nearest, fun u member => ?_⟩
      rcases List.mem_append.mp member with earlier | last
      · exact least u earlier
      · obtain rfl := List.mem_singleton.mp last
        rw [single_lt_iff_rank ht.number hs, not_lt] at less
        exact (single_le_iff_rank hs ht.number).mpr less

/-- The search goes on to the end. -/
theorem foldl_nearer (later : List Swatch) (first : FirstNearest c seen s)
    (measured : ∀ u ∈ seen ++ later, u.Measured c) :
    ∃ s', later.foldl (nearer c.rounded.lab) (some (s, s.distance c)) =
      some (s', s'.distance c) ∧ FirstNearest c (seen ++ later) s' := by
  induction later generalizing seen s with
  | nil => exact ⟨s, rfl, (List.append_nil seen).symm ▸ first⟩
  | cons t later ih =>
      rw [← List.singleton_append, ← List.append_assoc] at measured ⊢
      obtain ⟨s', step, first'⟩ := first.next fun u member =>
        measured u (List.mem_append_left _ member)
      rw [List.singleton_append, List.foldl_cons, step]
      exact ih first' measured

end

/-! ## The match -/

theorem entries_ne_nil (p : Palette) : p.entries ≠ [] := by
  cases p with
  | tailwind => exact List.cons_ne_nil _ _
  | material => decide
  | swiftUI => decide

theorem measured_of_mem {p : Palette} {s : Swatch} (member : s ∈ p.swatches) (c : Color) :
    s.Measured c := by
  obtain ⟨k, keyed, -⟩ := exists_key_of_mem member
  refine ⟨keyed.lab, IsNonnegative.ne_notANumber ?_⟩
  exact Lab.isNonnegative_distance c.bounded_lab_rounded (keyed.lab ▸ keyed.bounded)

/-- A color is called by the first of the entries nearest to it, or by none if that is out of
tolerance. -/
theorem exists_firstNearest (p : Palette) (c : Color) :
    ∃ s, FirstNearest c p.swatches s ∧ ∀ tolerance, p.nearest? c tolerance =
      if tolerance < widen (s.distance c) then none
      else some ⟨s.entry.name, decide (c.SameRgb s.color)⟩ := by
  have nonempty : p.swatches ≠ [] := by
    intro empty
    have entries := map_entry_swatches p
    rw [empty] at entries
    exact entries_ne_nil p entries.symm
  obtain ⟨first, later, swatches⟩ := List.exists_cons_of_ne_nil nonempty
  have measured : ∀ u ∈ [first] ++ later, u.Measured c := by
    intro u member
    refine measured_of_mem (p := p) ?_ c
    rw [swatches]
    exact member
  have start : FirstNearest c [first] first := ⟨[], [], rfl, nofun, nofun⟩
  obtain ⟨s, found, nearest⟩ := foldl_nearer later start measured
  have distance : c.rounded.lab.distance first.lab = first.distance c := by
    rw [(measured first List.mem_cons_self).lab]
    rfl
  have search : p.swatches.foldl (nearer c.rounded.lab) none = some (s, s.distance c) := by
    rw [swatches, List.foldl_cons, nearer, distance]
    exact found
  refine ⟨s, swatches ▸ nearest, fun tolerance => ?_⟩
  rw [Color.rounded] at search
  rw [nearest?, search]
  rfl

/-- What calling a color by a name comes to. -/
structure FindsNearest (p : Palette) (c : Color) : Prop where
  /-- All entries take part in their order, each with the color of its text. -/
  entries : p.swatches.map (·.entry) = p.entries ∧
    ∀ s ∈ p.swatches, Color.ofHex? s.entry.hex = some s.color
  /-- Of the nearest entries, the first is the match, if it is within the tolerance. -/
  first : ∃ s, FirstNearest c p.swatches s ∧ ∀ tolerance,
    ((p.nearest? c tolerance).isSome = true ↔ ¬tolerance < widen (s.distance c)) ∧
    (tolerance.isNaN = false →
      ((p.nearest? c tolerance).isSome = true ↔ widen (s.distance c) ≤ tolerance)) ∧
    ∀ m, p.nearest? c tolerance = some m →
      m.name = s.entry.name ∧ (m.exact = true ↔ c.SameRgb s.color)
  /-- Only the bytes count, and not that of alpha. -/
  bytes : ∀ d : Color, c.SameRgb d → ∀ tolerance, p.nearest? d tolerance = p.nearest? c tolerance
  /-- A color that an entry has is matched exactly. -/
  own : ∀ s ∈ p.swatches, c.SameRgb s.color → ∀ tolerance : Float, 0.0 ≤ tolerance →
    ∃ m, p.nearest? c tolerance = some m ∧ m.exact = true
  /-- A match stays the same if the tolerance grows. -/
  steady : ∀ (tolerance wider : Float) (m : Match), tolerance ≤ wider →
    p.nearest? c tolerance = some m → p.nearest? c wider = some m

/-- A color of the same bytes as an entry, alpha aside, is that entry when it is rounded. -/
theorem rounded_eq_of_sameRgb {p : Palette} {c : Color} {s : Swatch} (member : s ∈ p.swatches)
    (same : c.SameRgb s.color) : c.rounded = s.color := by
  obtain ⟨k, keyed, -⟩ := exists_key_of_mem member
  obtain ⟨r, g, b, -, red, green, blue, color⟩ := keyed.color
  obtain ⟨hr, hg, hb⟩ := same
  rw [Color.rounded, hr, hg, hb, color, Color.bytes_ofBytes red green blue]

/-- The entry nearest to a color that is an entry itself has the same color and is at no
distance. -/
theorem FirstNearest.color_eq {p : Palette} {c : Color} {s t : Swatch}
    (first : FirstNearest c p.swatches s) (member : t ∈ p.swatches) (same : c.SameRgb t.color) :
    s.color = t.color ∧ s.distance c = 0.0 := by
  obtain ⟨k, keyed, -⟩ := exists_key_of_mem member
  have rounded := rounded_eq_of_sameRgb member same
  have none : t.distance c = 0.0 := by
    rw [Swatch.distance, rounded, Color.deltaE, ← keyed.lab]
    exact Lab.distance_self keyed.bounded
  have color : s.color = t.color := by
    by_contra differ
    have least := first.rank_le (fun u listed => measured_of_mem listed c) member
    have apart : IsPositive (s.distance c) := by
      rw [Swatch.distance, rounded, Color.deltaE, ← keyed.lab,
        ← (measured_of_mem first.mem c).lab]
      exact isPositive_distance member first.mem (Ne.symm differ)
    rw [none, unpack_single_zero] at least
    exact absurd (apart.rank_zero_lt .positive) (not_lt.mpr least)
  refine ⟨color, ?_⟩
  rw [Swatch.distance, color]
  exact none

/-- Whatever the color and the tolerance are, a palette gives the name of the first of the entries
at the least distance from the bytes of the color, if that distance is within the tolerance. -/
theorem findsNearest (p : Palette) (c : Color) : p.FindsNearest c := by
  obtain ⟨s, first, value⟩ := p.exists_firstNearest c
  have number := unpack_widen_ne (measured_of_mem first.mem c).number
  constructor
  case entries =>
    refine ⟨map_entry_swatches p, fun t member => ?_⟩
    obtain ⟨k, keyed, -⟩ := exists_key_of_mem member
    exact keyed.read
  case first =>
    refine ⟨s, first, fun tolerance => ?_⟩
    have found : (p.nearest? c tolerance).isSome = true ↔ ¬tolerance < widen (s.distance c) := by
      rw [value]
      split <;> simp [*]
    refine ⟨found, fun isNumber => found.trans ?_, fun m called => ?_⟩
    · have other : tolerance.toModel.unpack ≠ .notANumber := isNaN_eq_false_iff.mp isNumber
      rw [lt_iff_rank other number, le_iff_rank number other, not_lt]
    · rw [value] at called
      split at called
      · cases called
      · obtain rfl := Option.some.inj called
        exact ⟨rfl, decide_eq_true_iff⟩
  case bytes =>
    rintro d ⟨r, g, b⟩ tolerance
    exact nearest?_congr p r.symm g.symm b.symm tolerance
  case own =>
    intro t member same tolerance nonnegative
    obtain ⟨color, none⟩ := first.color_eq member same
    have within : ¬tolerance < widen (s.distance c) := by
      obtain ⟨-, other⟩ := ne_notANumber_of_le ((le_iff _ _).mp nonnegative)
      have zero := unpack_widen_of_zero (none ▸ unpack_single_zero)
      rw [lt_iff_rank other number, not_lt, zero]
      rw [le_iff_rank (by rw [unpack_zero]; exact nofun) other, unpack_zero] at nonnegative
      exact nonnegative
    refine ⟨_, (value tolerance).trans (if_neg within), ?_⟩
    exact decide_eq_true (color ▸ same)
  case steady =>
    intro tolerance wider m le called
    obtain ⟨hx, hy⟩ := ne_notANumber_of_le ((le_iff _ _).mp le)
    rw [value] at called ⊢
    split at called
    · cases called
    · rename_i within
      rw [lt_iff_rank hx number, not_lt] at within
      rw [le_iff_rank hx hy] at le
      rw [if_neg, called]
      rw [lt_iff_rank hy number, not_lt]
      exact within.trans le

end Palette

end Handoff
