import Handoff.Design.TypeName
import Handoff.Proofs.Design.SnakeNames

/-!
The names of the types that the roots of a design become.

A type name is the Pascal case of a unique name, with a number behind it where that is taken
(`freshTypeName_eq`).  No two roots get one type name (`nodup_typeNames`), and a name without
digits is a type name if and only if it is the Pascal case of a root's name
(`mem_typeNames_iff`).

Every root gets the first type name that is free.  `Search taken base name number found` is the
search as a loop without a bound: a candidate that is taken is followed by the base with the next
number.  A base is found a name beside any finite number of names taken (`search_of_isLeastFree`),
so the search has an end, and the bounded search of `freshTypeName` ends where it does.  This holds
of all forests, whatever their roots are called (`namedInTurn_typeNames`).
-/

namespace Handoff.Design

open Naming (numbered)
open Text (IsSnake pascal)

/-! ## One type name -/

/-- The name that a base gets beside those taken: the base itself if it is free, else the base with
the least number from two on that is free, which is at most one more than there are names taken. -/
def IsLeastFree (taken : List String) (base name : String) : Prop :=
  (base ∉ taken ∧ name = base) ∨
    (base ∈ taken ∧ ∃ n, 2 ≤ n ∧ n ≤ taken.length + 1 ∧ name = numbered base n ∧ name ∉ taken ∧
      ∀ m, 2 ≤ m → m < n → numbered base m ∈ taken)

theorem isLeastFree_freshTypeName (taken : List String) (base : String) :
    IsLeastFree taken base (freshTypeName taken base) := by
  unfold freshTypeName
  by_cases member : base ∈ taken
  · rw [if_pos (List.contains_iff_mem.mpr member)]
    obtain ⟨n, low, high, fresh⟩ := Naming.exists_not_mem member (Naming.numbered_ne base)
      fun _ _ => Naming.numbered_injective
    obtain ⟨n, low, high, search, found, least⟩ := @Naming.firstFree_spec (numbered base)
      (fun name => !taken.contains name) _ _ ⟨n, low, high, by simpa using fresh⟩
    have named : Naming.firstFree (fun n => base ++ toString n)
        (fun name => !taken.contains name) taken.length 2 = numbered base n := search
    rw [named]
    refine .inr ⟨member, n, low, by omega, rfl, by simpa using found, fun m above below => ?_⟩
    simpa using least m above below
  · rw [if_neg fun contained => member (List.contains_iff_mem.mp contained)]
    exact .inl ⟨member, rfl⟩

/-- The name of a type is the base, or the base with a number where that is taken; it is not
taken in either case. -/
theorem freshTypeName_eq (taken : List String) (base : String) :
    freshTypeName taken base ∉ taken ∧
      ((base ∉ taken ∧ freshTypeName taken base = base) ∨
        (base ∈ taken ∧ ∃ n, freshTypeName taken base = numbered base n)) := by
  rcases isLeastFree_freshTypeName taken base with ⟨free, own⟩ | ⟨member, n, -, -, own, fresh, -⟩
  · exact ⟨own.symm ▸ free, .inl ⟨free, own⟩⟩
  · exact ⟨fresh, .inr ⟨member, n, own⟩⟩

/-! ## Type names in turn -/

section

variable {names taken : List String} {name : String}

/-- Type names given in turn differ from each other and from those taken before. -/
theorem nodup_typeNamesFrom (names taken : List String) :
    (typeNamesFrom taken names).Nodup ∧ ∀ name ∈ typeNamesFrom taken names, name ∉ taken := by
  induction names generalizing taken with
  | nil => exact ⟨List.nodup_nil, fun name member => nomatch member⟩
  | cons name rest ih =>
      obtain ⟨distinct, fresh⟩ := ih (freshTypeName taken (pascal name) :: taken)
      rw [typeNamesFrom]
      refine ⟨List.nodup_cons.mpr
        ⟨fun member => fresh _ member List.mem_cons_self, distinct⟩, ?_⟩
      refine List.forall_mem_cons.mpr ⟨(freshTypeName_eq taken _).1, fun other later => ?_⟩
      exact fun inside => fresh other later (List.mem_cons_of_mem _ inside)

/-- Every type name is the Pascal case of a name, perhaps with a number. -/
theorem exists_of_mem_typeNamesFrom {typeName : String}
    (member : typeName ∈ typeNamesFrom taken names) :
    ∃ name ∈ names, typeName = pascal name ∨ ∃ n, typeName = numbered (pascal name) n := by
  induction names generalizing taken with
  | nil => cases member
  | cons name rest ih =>
      rw [typeNamesFrom] at member
      rcases List.mem_cons.mp member with rfl | later
      · refine ⟨name, List.mem_cons_self, ?_⟩
        rcases (freshTypeName_eq taken (pascal name)).2 with ⟨-, own⟩ | ⟨-, own⟩
        · exact .inl own
        · exact .inr own
      · obtain ⟨other, among, own⟩ := ih later
        exact ⟨other, List.mem_cons_of_mem name among, own⟩

/-- The Pascal case of a name is a type name, of this name or of one before it. -/
theorem pascal_mem_typeNamesFrom (member : name ∈ names) :
    pascal name ∈ taken ∨ pascal name ∈ typeNamesFrom taken names := by
  induction names generalizing taken with
  | nil => cases member
  | cons first rest ih =>
      rw [typeNamesFrom]
      rcases List.mem_cons.mp member with rfl | later
      · rcases (freshTypeName_eq taken (pascal name)).2 with ⟨-, own⟩ | ⟨inside, -⟩
        · rw [own]
          exact .inr List.mem_cons_self
        · exact .inl inside
      · rcases @ih (freshTypeName taken (pascal first) :: taken) later with inside | given
        · rcases List.mem_cons.mp inside with same | before
          · rw [same]
            exact .inr List.mem_cons_self
          · exact .inl before
        · exact .inr (List.mem_cons_of_mem _ given)

end

theorem length_typeNamesFrom (names taken : List String) :
    (typeNamesFrom taken names).length = names.length := by
  induction names generalizing taken with
  | nil => rfl
  | cons name rest ih => exact congrArg (· + 1) (ih _)

/-! ## Roots of a design -/

theorem length_typeNames (forest : List Node) : (typeNames forest).length = forest.length := by
  rw [typeNames, length_typeNamesFrom, List.length_map]

theorem nodup_typeNames (forest : List Node) : (typeNames forest).Nodup :=
  (nodup_typeNamesFrom _ []).1

section

variable {s : Settings} {host : Option Scene.Node} {roots : List Scene.Node} {forest : List Node}
  {typeName name : String}

/-- A root is a node of the design, so its name is in snake case. -/
theorem isSnake_of_mem_roots (built : build s host roots = .ok forest)
    (member : name ∈ forest.map (·.box.uniqueName)) : IsSnake name.toList := by
  obtain ⟨root, among, rfl⟩ := List.mem_map.mp member
  exact isSnake_of_build built (Node.mem_preorderList_of_mem among)

/-- A type name is put together from letters and digits. -/
theorem isPlain_of_mem_typeNames (built : build s host roots = .ok forest)
    (member : typeName ∈ typeNames forest) :
    ∀ c ∈ typeName.toList, Naming.isPlain c = true := by
  obtain ⟨name, among, own⟩ := exists_of_mem_typeNamesFrom member
  have plain :=
    Text.isPlain_of_mem_pascal (isSnake_of_mem_roots built among).isPiece_of_mem_words
  rcases own with rfl | ⟨n, rfl⟩
  · exact plain
  · rw [Naming.toList_numbered]
    refine List.forall_mem_append.mpr ⟨plain, fun c inside => ?_⟩
    have digit := Nat.isDigit_of_mem_toDigits (by decide) (by decide) inside
    simp [Naming.isPlain, digit]

theorem ne_empty_of_mem_typeNames (built : build s host roots = .ok forest)
    (member : typeName ∈ typeNames forest) : typeName ≠ "" := by
  obtain ⟨name, among, own⟩ := exists_of_mem_typeNamesFrom member
  have filled := Text.pascal_ne_empty (isSnake_of_mem_roots built among)
  rcases own with rfl | ⟨n, rfl⟩
  · exact filled
  · intro empty
    have chars := congrArg String.toList empty
    rw [Naming.toList_numbered] at chars
    exact Nat.toDigits_ne_nil (List.append_eq_nil_iff.mp chars).2

/-- The Pascal case of a single word is a type name if and only if a root is called by that
word. -/
theorem mem_typeNames_iff (built : build s host roots = .ok forest) (filled : name.toList ≠ [])
    (letters : name.toList.all Char.isLower = true)
    (raised : Text.raise true name.toList = typeName.toList)
    (unnumbered : typeName.toList.all (!·.isDigit) = true) :
    typeName ∈ typeNames forest ↔ ∃ root ∈ forest, root.box.uniqueName = name := by
  have snake : IsSnake name.toList := (Text.isPiece_of_all_isLower filled letters).isSnake
  have digitless : ∀ c ∈ name.toList, c.isDigit = false := fun c inside =>
    Text.isDigit_eq_false_of_isLower (List.all_eq_true.mp letters c inside)
  simp only [List.all_eq_true, Bool.not_eq_true'] at unnumbered
  have own : pascal name = typeName := by
    rw [← String.toList_inj, Text.toList_pascal snake, raised]
  constructor
  · intro member
    obtain ⟨other, among, given⟩ := exists_of_mem_typeNamesFrom member
    have same : pascal other = pascal name := by
      rcases given with same | ⟨n, same⟩
      · rw [own, same]
      · -- A number would leave a digit.
        obtain ⟨d, digit⟩ := List.exists_mem_of_ne_nil _ (Nat.toDigits_ne_nil (n := n) (b := 10))
        have inside : d ∈ typeName.toList := by
          rw [same, Naming.toList_numbered]
          exact List.mem_append_right _ digit
        have isDigit := Nat.isDigit_of_mem_toDigits (by decide) (by decide) digit
        exact absurd ((unnumbered d inside).symm.trans isDigit) Bool.false_ne_true
    have closed := (Text.pascal_eq_iff (isSnake_of_mem_roots built among) snake).mp same
    rw [(Text.closeNumbers_eq_iff digitless).mpr rfl, Text.closeNumbers_eq_iff digitless] at closed
    rw [closed] at among
    exact List.mem_map.mp among
  · rintro ⟨root, among, rfl⟩
    rw [← own]
    exact (pascal_mem_typeNamesFrom (List.mem_map.mpr ⟨root, among, rfl⟩)).resolve_left
      List.not_mem_nil

end

end Handoff.Design

/-! ## The first free name -/

namespace Handoff.Design

open Naming (numbered)
open Text (pascal)

/-! ## The search -/

/-- The search for a name beside those taken, from a candidate and the number to try after it on
to the name that is found. -/
inductive Search (taken : List String) (base : String) : String → Nat → String → Prop
  /-- A candidate that is free is found. -/
  | free {name : String} {number : Nat} (fresh : name ∉ taken) :
      Search taken base name number name
  /-- After one that is taken the base is tried with the number. -/
  | next {name found : String} {number : Nat} (occupied : name ∈ taken)
      (later : Search taken base (numbered base number) (number + 1) found) :
      Search taken base name number found

variable {taken : List String} {base name : String}

/-- The search goes past all numbers that are taken. -/
theorem search_numbered {number n : Nat} (low : number ≤ n) (fresh : numbered base n ∉ taken)
    (least : ∀ m, number ≤ m → m < n → numbered base m ∈ taken) :
    Search taken base (numbered base number) (number + 1) (numbered base n) := by
  induction steps : n - number generalizing number with
  | zero =>
      have same : number = n := by omega
      rw [same]
      exact .free fresh
  | succ steps ih =>
      have later := @ih (number + 1) (by omega)
        (fun m above below => least m (by omega) below) (by omega)
      exact .next (least number (Nat.le_refl number) (by omega)) later

/-- The least free name is what the search finds. -/
theorem search_of_isLeastFree (least : IsLeastFree taken base name) :
    Search taken base base 2 name := by
  rcases least with ⟨fresh, rfl⟩ | ⟨occupied, n, low, -, rfl, fresh, before⟩
  · exact .free fresh
  · exact .next occupied (search_numbered low fresh before)

/-! ## Roots in turn -/

theorem isLeastFree_reverse :
    IsLeastFree taken.reverse base name ↔ IsLeastFree taken base name := by
  simp only [IsLeastFree, List.mem_reverse, List.length_reverse]

/-- The name at a place is chosen beside those before it and those taken already. -/
theorem getElem?_typeNamesFrom {names : List String} {i : Nat} {given : String}
    (placed : names[i]? = some given) :
    (typeNamesFrom taken names)[i]? = some (freshTypeName
      (((typeNamesFrom taken names).take i).reverse ++ taken) (pascal given)) := by
  induction names generalizing taken i with
  | nil => cases placed
  | cons first rest ih =>
      rw [typeNamesFrom]
      cases i with
      | zero =>
          cases placed
          rfl
      | succ i =>
          have later := @ih (freshTypeName taken (pascal first) :: taken) _ placed
          rw [List.getElem?_cons_succ, later, List.take_succ_cons, List.reverse_cons,
            List.append_assoc, List.singleton_append]

/-- The roots of a forest have names, given to them in turn. -/
structure NamedInTurn (forest : List Node) (names : List String) : Prop where
  length : names.length = forest.length
  distinct : names.Nodup
  /-- The search beside the names before it ends with the name of a root; it is the base, or the
  base with the least number that is free. -/
  given : ∀ i root, forest[i]? = some root → ∃ name, names[i]? = some name ∧
    Search (names.take i) (pascal root.box.uniqueName) (pascal root.box.uniqueName) 2 name ∧
    IsLeastFree (names.take i) (pascal root.box.uniqueName) name

/-- All roots get names, whatever they are called. -/
theorem namedInTurn_typeNames (forest : List Node) : NamedInTurn forest (typeNames forest) := by
  constructor
  case length => exact length_typeNames forest
  case distinct => exact nodup_typeNames forest
  case given =>
    intro i root placed
    have called : (forest.map (·.box.uniqueName))[i]? = some root.box.uniqueName := by
      rw [List.getElem?_map, placed, Option.map_some]
    have named := @getElem?_typeNamesFrom [] _ _ _ called
    rw [List.append_nil] at named
    have least := isLeastFree_reverse.mp (isLeastFree_freshTypeName
      ((typeNames forest).take i).reverse (pascal root.box.uniqueName))
    exact ⟨_, named, search_of_isLeastFree least, least⟩

-- The second root meets the base of the first, and the third the name that the second got then.
example : typeNamesFrom [] ["card_1", "card1", "card_1_2", "hero"] =
    ["Card1", "Card12", "Card122", "Hero"] := by
  decide +kernel

end Handoff.Design
