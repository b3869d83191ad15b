import Handoff.Design.UsedColors

/-!
The first element of every key.

`Firsts` says what is left of a list when only the first element of every key is kept: each kept
element is the first with its key, the keys keep the order in which they come up, and no key is
lost or doubled.  One more element keeps this (`Firsts.appendNew`), and so `distinctBy` has it of
every list (`firsts_distinctBy`).  A search for the best element of a list ends with one of its
elements (`mem_of_best`).
-/

namespace Handoff

variable {α β κ : Type} [BEq κ]

/-! ## Keys of changed elements -/

theorem appendNew_map (f : α → β) (key : β → κ) (kept : List α) (a : α) :
    appendNew key (kept.map f) (f a) = (appendNew (fun b => key (f b)) kept a).map f := by
  have present : (kept.map f).any (key · == key (f a)) =
      kept.any (fun b => key (f b) == key (f a)) := by
    rw [List.any_map]
    rfl
  unfold appendNew
  rw [present]
  split
  · rfl
  · rw [List.map_append, List.map_cons, List.map_nil]

/-- Firsts may be told by a key before or after a change that the key goes through. -/
theorem distinctBy_map (f : α → β) (key : β → κ) (items : List α) :
    distinctBy key (items.map f) = (distinctBy (fun a => key (f a)) items).map f := by
  have carried : ∀ kept : List α, (items.map f).foldl (appendNew key) (kept.map f) =
      (items.foldl (appendNew fun a => key (f a)) kept).map f := by
    induction items with
    | nil => intro kept; rfl
    | cons a rest ih =>
        intro kept
        rw [List.map_cons, List.foldl_cons, List.foldl_cons, appendNew_map]
        exact ih _
  exact carried []

/-! ## First elements -/

/-- Of some items the first of every key is kept, in order. -/
structure Firsts (key : α → κ) (items kept : List α) : Prop where
  /-- What is kept is the first item with its key. -/
  first : ∀ a ∈ kept, items.find? (key · == key a) = some a
  /-- What is kept has the order in which the keys come up. -/
  ordered : kept.Pairwise fun a b =>
    items.findIdx (key · == key a) < items.findIdx (key · == key b)
  /-- For every item exactly one with its key is kept. -/
  once : ∀ a ∈ items, ∃ b, kept.filter (key · == key a) = [b]

namespace Firsts

variable {key : α → κ} {items kept : List α}

theorem nil : Firsts key [] [] :=
  ⟨fun _ member => (nomatch member), .nil, fun _ member => (nomatch member)⟩

theorem mem (firsts : Firsts key items kept) {a : α} (member : a ∈ kept) : a ∈ items :=
  List.mem_of_find?_eq_some (firsts.first a member)

theorem find?_append (firsts : Firsts key items kept) {a : α} (member : a ∈ kept)
    (later : List α) : (items ++ later).find? (key · == key a) = some a := by
  rw [List.find?_append, firsts.first a member, Option.some_or]

section

variable [LawfulBEq κ]

/-- An element with the key of an item is kept. -/
theorem exists_mem (firsts : Firsts key items kept) {a : α} (member : a ∈ items) :
    ∃ b ∈ kept, key b = key a := by
  obtain ⟨b, only⟩ := firsts.once a member
  obtain ⟨among, same⟩ := List.mem_filter.mp (only ▸ List.mem_singleton_self b)
  exact ⟨b, among, eq_of_beq same⟩

theorem findIdx_lt (firsts : Firsts key items kept) {a : α} (member : a ∈ kept) :
    items.findIdx (key · == key a) < items.length :=
  List.findIdx_lt_length_of_exists ⟨a, firsts.mem member, beq_self_eq_true _⟩

/-- Later items do not change where a key comes up first. -/
theorem findIdx_append (firsts : Firsts key items kept) {a : α} (member : a ∈ kept)
    (later : List α) :
    (items ++ later).findIdx (key · == key a) = items.findIdx (key · == key a) := by
  rw [List.findIdx_append, if_pos (firsts.findIdx_lt member)]

theorem ordered_append (firsts : Firsts key items kept) (later : List α) :
    kept.Pairwise fun a b => (items ++ later).findIdx (key · == key a) <
      (items ++ later).findIdx (key · == key b) := by
  refine firsts.ordered.imp_of_mem fun first second before => ?_
  rwa [firsts.findIdx_append first, firsts.findIdx_append second]

/-- An item whose key is there already changes nothing. -/
theorem skip (firsts : Firsts key items kept) {a b : α} (member : b ∈ kept)
    (same : key b = key a) : Firsts key (items ++ [a]) kept where
  first c among := firsts.find?_append among _
  ordered := firsts.ordered_append _
  once := by
    intro c among
    rcases List.mem_append.mp among with earlier | last
    · exact firsts.once c earlier
    · rw [List.mem_singleton.mp last, ← same]
      exact firsts.once b (firsts.mem member)

/-- An item with a new key is kept behind all others. -/
theorem snoc (firsts : Firsts key items kept) {a : α}
    (fresh : ∀ b ∈ items, (key b == key a) = false) :
    Firsts key (items ++ [a]) (kept ++ [a]) where
  first := by
    intro c among
    rcases List.mem_append.mp among with earlier | last
    · exact firsts.find?_append earlier _
    · rw [List.mem_singleton.mp last, List.find?_append,
        List.find?_eq_none.mpr fun b member => Bool.eq_false_iff.mp (fresh b member)]
      simp
  ordered := by
    have last : (items ++ [a]).findIdx (key · == key a) = items.length := by
      rw [List.findIdx_append, List.findIdx_eq_length_of_false fresh, if_neg (Nat.lt_irrefl _)]
      simp
    refine List.pairwise_append.mpr ⟨firsts.ordered_append _, List.pairwise_singleton _ _, ?_⟩
    intro b member c single
    rw [List.mem_singleton.mp single, last, firsts.findIdx_append member]
    exact firsts.findIdx_lt member
  once := by
    intro c among
    rw [List.filter_append]
    rcases List.mem_append.mp among with earlier | last
    · obtain ⟨b, only⟩ := firsts.once c earlier
      have other : (key a == key c) = false := by
        rw [Bool.beq_comm]
        exact fresh c earlier
      refine ⟨b, ?_⟩
      rw [only]
      simp [other]
    · have none : kept.filter (key · == key a) = [] := List.filter_eq_nil_iff.mpr
        fun b member => Bool.eq_false_iff.mp (fresh b (firsts.mem member))
      refine ⟨a, ?_⟩
      rw [List.mem_singleton.mp last, none]
      simp

/-- An element is kept unless there is one with its key already. -/
theorem appendNew (firsts : Firsts key items kept) (a : α) :
    Firsts key (items ++ [a]) (appendNew key kept a) := by
  unfold Handoff.appendNew
  split
  · rename_i present
    obtain ⟨b, member, same⟩ := List.any_eq_true.mp present
    exact firsts.skip member (eq_of_beq same)
  · rename_i absent
    refine firsts.snoc fun b member => Bool.eq_false_iff.mpr fun equal => ?_
    obtain ⟨c, among, same⟩ := firsts.exists_mem member
    exact absent (List.any_eq_true.mpr ⟨c, among, same ▸ equal⟩)

theorem foldl (firsts : Firsts key items kept) (later : List α) :
    Firsts key (items ++ later) (later.foldl (Handoff.appendNew key) kept) := by
  induction later generalizing items kept with
  | nil =>
      rw [List.append_nil]
      exact firsts
  | cons a rest ih =>
      rw [List.append_cons]
      exact ih (firsts.appendNew a)

end

end Firsts

theorem firsts_distinctBy [LawfulBEq κ] (key : α → κ) (items : List α) :
    Firsts key items (distinctBy key items) :=
  Firsts.nil.foldl items

/-! ## The best element -/

/-- What a search through a list ends with is in the list, if each step keeps what it has or takes
what comes next. -/
theorem mem_of_best {α β : Type} {f : Option β → α → Option β} (key : β → α)
    (step : ∀ best next chosen, f best next = some chosen → best = some chosen ∨ key chosen = next)
    {l : List α} {chosen : β} (found : l.foldl f none = some chosen) : key chosen ∈ l := by
  have run : ∀ (later : List α) (best : Option β),
      later.foldl f best = some chosen → best = some chosen ∨ key chosen ∈ later := by
    intro later
    induction later with
    | nil => exact fun best found => .inl found
    | cons next rest ih =>
        intro best found
        rcases ih _ found with kept | later
        · rcases step best next chosen kept with same | taken
          · exact .inl same
          · exact .inr (List.mem_cons.mpr (.inl taken))
        · exact .inr (List.mem_cons_of_mem next later)
  exact (run l none found).resolve_left nofun

end Handoff
