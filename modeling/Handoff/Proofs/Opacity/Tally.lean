import Mathlib.Algebra.Order.Ring.Nat
import Handoff.Proofs.Text.Alphabet

/-!
How often a character occurs in a text.

`tally c s` counts the occurrences of a character.  `Adds` says of a function that its result counts
as its argument does, and a number more that does not depend on the argument: so do all functions
that put a text between others, or an item among others of a list.  Neither indenting lines nor
joining them adds an occurrence of a character that is not blank (`tally_indent`, `adds_intercalate`).

`Shifts` compares the results of one function for two arguments: the second counts a certain number
more than the first, and both are equal under a condition.  If a function adds, its results shift as
its arguments do (`Shifts.around`).
-/

namespace Handoff

namespace Text

/-! ## Occurrences -/

/-- How often a character occurs in a text. -/
def tally (c : Char) (s : String) : Nat := s.toList.count c

section

variable {c : Char}

@[simp] theorem tally_append (a b : String) : tally c (a ++ b) = tally c a + tally c b := by
  simp [tally]

@[simp] theorem tally_empty : tally c "" = 0 := rfl

theorem tally_ofList (cs : List Char) : tally c (String.ofList cs) = cs.count c := by
  rw [tally, String.toList_ofList]

theorem tally_eq_zero {s : String} (absent : c ∉ s.toList) : tally c s = 0 :=
  List.count_eq_zero.mpr absent

theorem Within.tally_eq_zero {allowed : Char → Bool} {s : String} (within : Within allowed s)
    (refused : allowed c = false) : tally c s = 0 :=
  Text.tally_eq_zero (within.not_mem refused)

theorem count_intercalate {separator : List Char} (between : separator.count c = 0) :
    ∀ parts : List (List Char),
      (separator.intercalate parts).count c = (parts.map (·.count c)).sum
  | [] => rfl
  | [only] => by simp
  | first :: second :: rest => by
      have later := count_intercalate between (second :: rest)
      rw [List.intercalate_cons_cons, List.count_append, List.count_append, between, later,
        Nat.add_zero, List.map_cons (a := first), List.sum_cons]

theorem tally_intercalate {separator : String} (between : tally c separator = 0)
    (items : List String) :
    tally c (separator.intercalate items) = (items.map (tally c)).sum := by
  rw [tally, String.toList_intercalate, count_intercalate between, List.map_map]
  rfl

theorem tally_join : ∀ items : List String, tally c (String.join items) = (items.map (tally c)).sum
  | [] => rfl
  | first :: rest => by
      rw [String.join_cons, tally_append, tally_join rest, List.map_cons, List.sum_cons]

/-- If the escape of every character has as many occurrences of `c` as the character itself, then
escaping a text keeps their number. -/
theorem tally_escapeWith {escape : Char → List Char}
    (each : ∀ d, (escape d).count c = [d].count c) (s : String) :
    tally c (escapeWith escape s) = tally c s := by
  rw [escapeWith, tally_ofList, tally]
  induction s.toList with
  | nil => rfl
  | cons d rest ih =>
      rw [List.flatMap_cons, List.count_append, each, ih, ← List.count_append]
      rfl

theorem tally_substitute {d : Char} {replacement : List Char} (other : c ≠ d)
    (absent : c ∉ replacement) (s : String) :
    tally c (substitute d replacement s) = tally c s := by
  refine tally_escapeWith (fun e => ?_) s
  split
  · rename_i same
    rw [List.count_eq_zero.mpr absent, same, List.count_singleton]
    simp [Ne.symm other]
  · rfl

/-! ## Lines -/

theorem ne_of_not_isBlank {d : Char} (solid : isBlank c = false) (blank : isBlank d = true) :
    c ≠ d := by
  rintro rfl
  rw [solid] at blank
  cases blank

theorem tally_of_blank (solid : isBlank c = false) {s : String} (blank : Within isBlank s) :
    tally c s = 0 :=
  blank.tally_eq_zero solid

theorem count_spaces (solid : isBlank c = false) (width : Nat) :
    (List.replicate width ' ').count c = 0 := by
  rw [List.count_replicate, if_neg]
  simpa using (ne_of_not_isBlank solid (by decide)).symm

theorem tally_spaces (solid : isBlank c = false) (width : Nat) : tally c (spaces width) = 0 := by
  rw [spaces, tally_ofList, count_spaces solid]

theorem count_splitChars {separator : Char} (other : c ≠ separator) (cs : List Char) :
    ((splitChars separator cs).map (·.count c)).sum = cs.count c := by
  induction cs with
  | nil => rfl
  | cons d rest ih =>
      rw [splitChars]
      split
      · rename_i same
        rw [List.map_cons, List.sum_cons, ih, List.count_cons, same]
        simp [Ne.symm other]
      · cases pieces : splitChars separator rest with
        | nil => exact absurd pieces (splitChars_ne_nil separator rest)
        | cons piece others =>
            rw [pieces, List.map_cons, List.sum_cons] at ih
            simp only [List.map_cons, List.sum_cons, List.count_cons, ← ih]
            omega

theorem count_dropReturn (other : c ≠ '\r') (line : List Char) :
    (dropReturn line).count c = line.count c := by
  unfold dropReturn
  split
  · rename_i rest reversed
    rw [← List.count_reverse (l := line), reversed, List.count_reverse, List.count_cons_of_ne]
    exact Ne.symm other
  · rfl

theorem count_indentLine (solid : isBlank c = false) (width : Nat) (line : List Char) :
    (indentLine width line).count c = line.count c := by
  unfold indentLine
  split
  · rename_i blank
    refine (List.count_eq_zero.mpr fun member => ?_).symm
    rw [List.all_eq_true.mp blank c member] at solid
    cases solid
  · rw [List.count_append, count_spaces solid, Nat.zero_add]

theorem count_lineChars (solid : isBlank c = false) (cs : List Char) :
    ((lineChars cs).map (·.count c)).sum = cs.count c := by
  have feed : c ≠ '\n' := ne_of_not_isBlank solid (by decide)
  have back : c ≠ '\r' := ne_of_not_isBlank solid (by decide)
  obtain ⟨init, last, pieces⟩ :=
    (List.eq_nil_or_concat _).resolve_left (splitChars_ne_nil '\n' cs)
  rw [List.concat_eq_append] at pieces
  have all := count_splitChars feed cs
  have ended : ((init.map dropReturn).map (·.count c)).sum = (init.map (·.count c)).sum := by
    rw [List.map_map]
    exact congrArg List.sum (List.map_congr_left fun line _ => count_dropReturn back line)
  rw [pieces, List.map_append, List.sum_append] at all
  rw [← all, ← ended]
  simp only [lineChars, pieces, List.dropLast_concat, List.getLast?_concat]
  cases last with
  | nil => rfl
  | cons d rest => rw [List.map_append, List.sum_append]

/-- Indenting a text keeps the number of occurrences of a character that is not blank. -/
theorem tally_indent (solid : isBlank c = false) (width : Nat) (s : String) :
    tally c (indent width s) = tally c s := by
  have feed : ['\n'].count c = 0 :=
    List.count_eq_zero.mpr (mt List.mem_singleton.mp (ne_of_not_isBlank solid (by decide)))
  rw [indent, tally_ofList, count_intercalate feed, List.map_map, tally,
    ← count_lineChars solid s.toList]
  exact congrArg List.sum (List.map_congr_left fun line _ => count_indentLine solid width line)

end

end Text

/-! ## Parts -/

section

/-- What the items of a list count together. -/
abbrev total {α : Type} (measure : α → Nat) (items : List α) : Nat := (items.map measure).sum

variable {α β γ : Type} {measure : α → Nat} {measure' : β → Nat} {measure'' : γ → Nat}

/-- The result of `f` counts what its argument counts, and a number more that is the same for all
arguments. -/
def Adds (measure : α → Nat) (measure' : β → Nat) (f : α → β) : Prop :=
  ∃ rest, ∀ a, measure' (f a) = rest + measure a

theorem Adds.comp {f : α → β} {g : β → γ} (outer : Adds measure' measure'' g)
    (inner : Adds measure measure' f) : Adds measure measure'' fun a => g (f a) := by
  obtain ⟨rest, outer⟩ := outer
  obtain ⟨rest', inner⟩ := inner
  exact ⟨rest + rest', fun a => by rw [outer, inner, Nat.add_assoc]⟩

theorem adds_of_eq {f : α → β} (own : ∀ a, measure' (f a) = measure a) :
    Adds measure measure' f :=
  ⟨0, fun a => by rw [own, Nat.zero_add]⟩

/-- To count on what `g` makes of a result is a way to count the result. -/
theorem Adds.measured {f : α → β} {g : β → γ} (own : Adds measure measure'' fun a => g (f a)) :
    Adds measure (fun b => measure'' (g b)) f :=
  own

theorem adds_inList (before after : List α) :
    Adds measure (total measure) fun a => before ++ a :: after := by
  refine ⟨(before.map measure).sum + (after.map measure).sum, fun a => ?_⟩
  simp only [total, List.map_append, List.sum_append, List.map_cons, List.sum_cons]
  omega

/-- Zipping adds the same number whatever the item is at one place of the second list, if the first
list reaches that far. -/
theorem adds_zipWith {δ : Type} {f : δ → α → β} (each : ∀ d, Adds measure measure' (f d))
    (after : List α) : ∀ {names : List δ} {before : List α}, before.length < names.length →
      Adds measure (total measure') fun a => names.zipWith f (before ++ a :: after)
  | [], _, short => absurd short (Nat.not_lt_zero _)
  | name :: names, [], _ => (adds_inList [] (names.zipWith f after)).comp (each name)
  | name :: names, first :: before, short => by
      obtain ⟨rest, own⟩ := adds_zipWith each after (Nat.lt_of_succ_lt_succ short)
      refine ⟨measure' (f name first) + rest, fun a => ?_⟩
      show measure' (f name first) + total measure' (names.zipWith f (before ++ a :: after)) = _
      rw [own, Nat.add_assoc]

theorem adds_between (before after : List α) :
    Adds (total measure) (total measure) fun items => before ++ items ++ after := by
  refine ⟨(before.map measure).sum + (after.map measure).sum, fun items => ?_⟩
  simp only [total, List.map_append, List.sum_append]
  omega

end

namespace Text

variable {c : Char}

/-- Putting a text between two others adds their occurrences. -/
theorem adds_enclose (front back : String) :
    Adds (tally c) (tally c) fun text => front ++ text ++ back := by
  refine ⟨tally c front + tally c back, fun text => ?_⟩
  simp only [tally_append]
  omega

theorem adds_front (front : String) : Adds (tally c) (tally c) fun text => front ++ text :=
  ⟨tally c front, fun text => tally_append front text⟩

theorem adds_intercalate {separator : String} (between : tally c separator = 0) :
    Adds (total (tally c)) (tally c) separator.intercalate :=
  adds_of_eq (tally_intercalate between)

theorem adds_join : Adds (total (tally c)) (tally c) String.join :=
  adds_of_eq tally_join

end Text

/-! ## Results that differ in a part -/

/-- The second of two results counts `more` more than the first, and they are equal if `same`
holds. -/
structure Shifts {α : Type} (same : Prop) (more : Int) (count : α → Nat) (a a' : α) : Prop where
  eq : same → a = a'
  count : (count a' : Int) = count a + more

namespace Shifts

variable {α β : Type} {same : Prop} {more : Int} {measure : α → Nat} {measure' : β → Nat}
  {a a' : α}

/-- If the result of `f` counts as its argument does but for a fixed number, then two results of it
are as many occurrences apart as their arguments. -/
theorem around (shifts : Shifts same more measure a a') {f : α → β}
    (own : Adds measure measure' f) : Shifts same more measure' (f a) (f a') where
  eq given := congrArg f (shifts.eq given)
  count := by
    obtain ⟨rest, own⟩ := own
    have count := shifts.count
    rw [own, own]
    omega

/-- Two results that are the same number apart only if `same` holds are equal exactly then. -/
theorem eq_iff (shifts : Shifts same more measure a a') (seen : more = 0 → same) :
    a = a' ↔ same := by
  refine ⟨fun equal => seen ?_, shifts.eq⟩
  have own := shifts.count
  rw [equal] at own
  omega

theorem refl (same : Prop) (measure : α → Nat) (a : α) : Shifts same 0 measure a a where
  eq _ := rfl
  count := (Int.add_zero _).symm

end Shifts

end Handoff
