import Handoff.Proofs.Text.Words

/-!
Names are identifiers, and no name is handed out twice.

`Naming.isIdentifier` is the form that all targets accept: a lower-case letter, then
lower-case letters, digits and underscores.  `isIdentifier_identifier` gives it to the base
made from any layer name, `Registry.isIdentifier_registerAll` to the names handed out.

`Registry.Grants` says which name a base gets, as the rule of an endless search: the base
itself if it is free, else the base with the least number from two on that makes it free.
`Registry.grants_pick` shows that the bounded search always gets there; taken names can
block fewer numbers than there are taken names, as the base is one of them.

`Registry.registerAll` hands out names in turn.  Its names are pairwise distinct and differ
from all that were taken before (`Registry.nodup_registerAll`).
-/

namespace Handoff

/-! ## Identifiers -/

namespace Naming

/-- Whether a character may stand in an identifier of a design. -/
def isWordChar (c : Char) : Bool :=
  Text.isLowerPlain c || c == '_'

/-- Whether a name begins with a lower-case letter and goes on with lower-case letters,
digits and underscores. -/
def isIdentifier (name : String) : Bool :=
  match name.toList with
  | [] => false
  | c :: cs => c.isLower && cs.all isWordChar

theorem isIdentifier_iff {name : String} :
    isIdentifier name = true ↔
      ∃ c cs, name.toList = c :: cs ∧ c.isLower = true ∧ ∀ d ∈ cs, isWordChar d = true := by
  unfold isIdentifier
  cases name.toList with
  | nil => simp
  | cons c cs => simp [and_assoc]

/-- An identifier stays one with more of its characters behind it. -/
theorem isIdentifier_append {name tail : String} (identifier : isIdentifier name = true)
    (plain : ∀ c ∈ tail.toList, isWordChar c = true) : isIdentifier (name ++ tail) = true := by
  obtain ⟨c, cs, chars, lower, rest⟩ := isIdentifier_iff.mp identifier
  refine isIdentifier_iff.mpr ⟨c, cs ++ tail.toList, ?_, lower, ?_⟩
  · rw [String.toList_append, chars, List.cons_append]
  · intro d member
    exact (List.mem_append.mp member).elim (rest d) (plain d)

/-- The base made from any layer name is an identifier if the fallback is one. -/
theorem isIdentifier_identifier (raw : String) {fallback : String}
    (usable : isIdentifier fallback = true) :
    isIdentifier (identifier raw fallback) = true := by
  have chars : (Text.snake (String.ofList (spaced raw.toList))).toList =
      Text.joinLower '_' (spaced raw.toList) := by
    rw [Text.snake, String.toList_ofList, String.toList_ofList]
  have plain := Text.isSpaced_spaced raw.toList
  have words : ∀ c ∈ Text.joinLower '_' (spaced raw.toList), isWordChar c = true := by
    intro c member
    rcases Text.mem_joinLower plain member with rfl | lower
    · rfl
    · simp [isWordChar, lower]
  unfold identifier
  simp only [chars]
  cases joined : Text.joinLower '_' (spaced raw.toList) with
  | nil => exact usable
  | cons c rest =>
      rw [joined] at chars words
      dsimp only
      by_cases digit : c.isDigit = true
      · rw [if_pos digit]
        refine isIdentifier_append (isIdentifier_append usable ?_) ?_
        · intro d member
          rw [List.mem_singleton.mp member]
          rfl
        · rwa [chars]
      · rw [if_neg digit]
        refine isIdentifier_iff.mpr ⟨c, rest, chars, ?_, fun d member => ?_⟩
        · have first := Text.head_joinLower plain joined
          simpa [Text.isLowerPlain, digit] using first
        · exact words d (List.mem_cons_of_mem c member)

/-! ## Numbers -/

/-- A base with a number right behind it. -/
def numbered (base : String) (n : Nat) : String :=
  base ++ toString n

theorem toList_numbered (base : String) (n : Nat) :
    (numbered base n).toList = base.toList ++ Nat.toDigits 10 n := by
  rw [numbered, String.toList_append, Nat.toString_eq_repr, Nat.toList_repr]

/-- Different numbers make different names of a base. -/
theorem numbered_injective {base : String} {m n : Nat} (same : numbered base m = numbered base n) :
    m = n := by
  have chars := congrArg String.toList same
  rw [toList_numbered, toList_numbered, List.append_right_inj] at chars
  have digits := congrArg (Nat.ofDigitChars 10 · 0) chars
  simpa only [Nat.ofDigitChars_ten_toDigits] using digits

theorem numbered_ne (base : String) (n : Nat) : base ≠ numbered base n := by
  intro same
  have chars := congrArg String.toList same
  rw [toList_numbered, List.self_eq_append_right] at chars
  exact Nat.toDigits_ne_nil chars

/-- A base with an underscore and a number behind it. -/
def suffixed (base : String) (n : Nat) : String :=
  base ++ "_" ++ toString n

theorem toList_suffixed (base : String) (n : Nat) :
    (suffixed base n).toList = base.toList ++ '_' :: Nat.toDigits 10 n := by
  rw [suffixed, String.toList_append, String.toList_append, Nat.toString_eq_repr,
    Nat.toList_repr, List.append_assoc]
  rfl

theorem suffixed_injective {base : String} {m n : Nat} (same : suffixed base m = suffixed base n) :
    m = n :=
  numbered_injective same

theorem suffixed_ne (base : String) (n : Nat) : base ≠ suffixed base n := by
  intro same
  have length := congrArg (·.toList.length) same
  simp only [toList_suffixed, List.length_append, List.length_cons] at length
  omega

theorem isIdentifier_suffixed {base : String} (identifier : isIdentifier base = true) (n : Nat) :
    isIdentifier (suffixed base n) = true := by
  unfold suffixed
  refine isIdentifier_append (isIdentifier_append identifier ?_) ?_
  · intro c member
    rw [List.mem_singleton.mp member]
    rfl
  · intro c member
    rw [Nat.toString_eq_repr, Nat.toList_repr] at member
    have digit := Nat.isDigit_of_mem_toDigits (by decide) (by decide) member
    simp [isWordChar, Text.isLowerPlain, digit]

/-- A search among enough candidates ends at the first that passes. -/
theorem firstFree_spec {candidate : Nat → String} {free : String → Bool} :
    ∀ {tries number : Nat},
      (∃ n, number ≤ n ∧ n < number + tries ∧ free (candidate n) = true) →
      ∃ n, number ≤ n ∧ n < number + tries ∧
        firstFree candidate free tries number = candidate n ∧ free (candidate n) = true ∧
        ∀ m, number ≤ m → m < n → free (candidate m) = false
  | 0, number, enough => by
      obtain ⟨n, low, high, -⟩ := enough
      omega
  | tries + 1, number, enough => by
      by_cases first : free (candidate number) = true
      · refine ⟨number, Nat.le_refl number, by omega, ?_, first, fun m low high => ?_⟩
        · rw [firstFree, if_pos first]
        · omega
      · have later : ∃ n, number + 1 ≤ n ∧ n < number + 1 + tries ∧ free (candidate n) = true := by
          obtain ⟨n, low, high, found⟩ := enough
          rcases Nat.eq_or_lt_of_le low with rfl | low
          · exact (first found).elim
          · exact ⟨n, low, by omega, found⟩
        obtain ⟨n, low, high, search, found, least⟩ := firstFree_spec later
        refine ⟨n, by omega, by omega, ?_, found, fun m from_ below => ?_⟩
        · rw [firstFree, if_neg first, search]
        · rcases Nat.eq_or_lt_of_le from_ with rfl | from_
          · exact Bool.eq_false_iff.mpr first
          · exact least m from_ below

/-- Not all numbered names of a taken base are taken: they and the base would be more names than
there are. -/
theorem exists_not_mem {taken : List String} {base : String} {candidate : Nat → String}
    (member : base ∈ taken) (differs : ∀ n, base ≠ candidate n)
    (injective : ∀ m n, candidate m = candidate n → m = n) :
    ∃ n, 2 ≤ n ∧ n < 2 + taken.length ∧ candidate n ∉ taken := by
  apply Classical.byContradiction
  intro none
  have all : ∀ k < taken.length, candidate (k + 2) ∈ taken := by
    intro k below
    apply Classical.byContradiction
    intro fresh
    exact none ⟨k + 2, by omega, by omega, fresh⟩
  have distinct : (base :: (List.range taken.length).map fun k => candidate (k + 2)).Nodup := by
    rw [List.nodup_cons]
    constructor
    · intro inside
      obtain ⟨k, -, same⟩ := List.mem_map.mp inside
      exact differs (k + 2) same.symm
    · rw [List.nodup_iff_pairwise_ne, List.pairwise_map]
      refine List.nodup_range.imp fun differ same => differ ?_
      have numbers := injective _ _ same
      omega
  have inside : (base :: (List.range taken.length).map fun k => candidate (k + 2)) ⊆ taken := by
    intro name among
    rcases List.mem_cons.mp among with rfl | among
    · exact member
    · obtain ⟨k, below, rfl⟩ := List.mem_map.mp among
      exact all k (List.mem_range.mp below)
  have count := distinct.length_le_of_subset inside
  simp only [List.length_cons, List.length_map, List.length_range] at count
  omega

end Naming

/-! ## One name -/

namespace Registry

open Naming (suffixed identifier isIdentifier)

/-- The name that a base gets: itself if it is free, else the base with the least number
from two on that is free, which is at most one more than there are names taken. -/
def Grants (r : Registry) (base name : String) : Prop :=
  (r.free base = true ∧ name = base) ∨
    (r.free base = false ∧ ∃ n, 2 ≤ n ∧ n ≤ r.taken.length + 1 ∧ name = suffixed base n ∧
      r.free name = true ∧ ∀ m, 2 ≤ m → m < n → r.free (suffixed base m) = false)

theorem free_eq_false_iff {r : Registry} {name : String} :
    r.free name = false ↔ name ∈ r.taken := by
  simp [free]

theorem free_iff {r : Registry} {name : String} : r.free name = true ↔ name ∉ r.taken := by
  simp [free]

theorem exists_free_suffixed {r : Registry} {base : String} (taken : base ∈ r.taken) :
    ∃ n, 2 ≤ n ∧ n < 2 + r.taken.length ∧ r.free (suffixed base n) = true := by
  obtain ⟨n, low, high, fresh⟩ := Naming.exists_not_mem taken (Naming.suffixed_ne base)
    fun _ _ => Naming.suffixed_injective
  exact ⟨n, low, high, free_iff.mpr fresh⟩

/-- The bounded search finds the name that an endless one would find. -/
theorem grants_pick (r : Registry) (base : String) : r.Grants base (r.pick base) := by
  unfold pick
  by_cases free : r.free base = true
  · rw [if_pos free]
    exact Or.inl ⟨free, rfl⟩
  · rw [if_neg free]
    have taken := Bool.eq_false_iff.mpr free
    obtain ⟨n, low, high, search, found, least⟩ :=
      Naming.firstFree_spec (exists_free_suffixed (free_eq_false_iff.mp taken))
    exact Or.inr ⟨taken, n, low, by omega, search, (congrArg r.free search).trans found, least⟩

theorem Grants.free_name {r : Registry} {base name : String} (grants : r.Grants base name) :
    r.free name = true := by
  rcases grants with ⟨free, rfl⟩ | ⟨-, n, -, -, -, free, -⟩
  · exact free
  · exact free

theorem Grants.isIdentifier {r : Registry} {base name : String} (grants : r.Grants base name)
    (usable : isIdentifier base = true) : isIdentifier name = true := by
  rcases grants with ⟨-, rfl⟩ | ⟨-, n, -, -, rfl, -, -⟩
  · exact usable
  · exact Naming.isIdentifier_suffixed usable n

/-! ## Names in turn -/

/-- Takes names for layer names, each with its fallback, in turn. -/
def registerAll (r : Registry) : List (String × String) → List String × Registry
  | [] => ([], r)
  | (raw, fallback) :: rest =>
    let first := r.register raw fallback
    let others := first.2.registerAll rest
    (first.1 :: others.1, others.2)

theorem registerAll_append (r : Registry) (left right : List (String × String)) :
    r.registerAll (left ++ right) =
      ((r.registerAll left).1 ++ ((r.registerAll left).2.registerAll right).1,
        ((r.registerAll left).2.registerAll right).2) := by
  induction left generalizing r with
  | nil => rfl
  | cons request rest ih =>
      simp only [List.cons_append, registerAll, ih]

/-- Names handed out in turn differ from each other and from those taken before. -/
theorem nodup_registerAll (r : Registry) (requests : List (String × String)) :
    (r.registerAll requests).1.Nodup ∧
      ∀ name ∈ (r.registerAll requests).1, name ∉ r.taken := by
  induction requests generalizing r with
  | nil => exact ⟨List.nodup_nil, fun name member => nomatch member⟩
  | cons request rest ih =>
      obtain ⟨raw, fallback⟩ := request
      obtain ⟨distinct, fresh⟩ := ih (r.register raw fallback).2
      have first : (r.register raw fallback).1 ∉ r.taken :=
        free_iff.mp (grants_pick r (identifier raw fallback)).free_name
      rw [registerAll]
      refine ⟨List.nodup_cons.mpr ⟨fun member => fresh _ member List.mem_cons_self, distinct⟩, ?_⟩
      intro name member
      rcases List.mem_cons.mp member with rfl | later
      · exact first
      · exact fun taken => fresh name later (List.mem_cons_of_mem _ taken)

-- The second layer is called what the third would be called otherwise.
example : (empty.registerAll [("Title", "text"), ("Title 2", "text"), ("Title", "text")]).1 =
    ["title", "title_2", "title_3"] := by
  decide +kernel

/-- Names handed out with usable fallbacks are identifiers. -/
theorem isIdentifier_registerAll (r : Registry) {requests : List (String × String)}
    (usable : ∀ request ∈ requests, isIdentifier request.2 = true) :
    ∀ name ∈ (r.registerAll requests).1, isIdentifier name = true := by
  induction requests generalizing r with
  | nil => exact fun name member => nomatch member
  | cons request rest ih =>
      obtain ⟨raw, fallback⟩ := request
      intro name member
      rw [registerAll] at member
      rcases List.mem_cons.mp member with rfl | later
      · exact (grants_pick r _).isIdentifier
          (Naming.isIdentifier_identifier raw (usable _ List.mem_cons_self))
      · exact ih _ (fun other among => usable other (List.mem_cons_of_mem _ among)) name later

end Registry

end Handoff
