import Handoff.Naming

/-!
Words of plain text.

Layer names reach the identifier styles only after every character but the ASCII letters
and digits became a space, so of all of Unicode little is left to argue about: no mark
attaches to another character (`clusters_of_plain`), and the lower case of a letter is one
letter (`lowerFrom_of_plain`).

The main statements are `mem_joinLower` and `head_joinLower`: the words of such a text,
joined in lower case, hold lower-case letters, digits and the separator, and do not begin
with the separator.
-/

namespace Handoff.Text

open Naming (isPlain)

/-! ## Characters -/

/-- What holds of the first 128 characters holds of all ASCII characters. -/
theorem forall_ascii {P : Char → Prop} (table : ∀ code < 128, P (Char.ofNat code)) {c : Char}
    (ascii : c.toNat < 128) : P c := by
  have found := table c.toNat ascii
  rwa [Char.ofNat_toNat] at found

/-- Letters and digits are ASCII characters. -/
theorem ascii_of_isPlain {c : Char} (plain : isPlain c = true) : c.toNat < 128 := by
  have alpha : c.isAlpha = (c.isUpper || c.isLower) := rfl
  have upper : c.isUpper = decide (c.val ≥ 'A'.val ∧ c.val ≤ 'Z'.val) := rfl
  have lower : c.isLower = (decide (c.val ≥ 'a'.val) && decide (c.val ≤ 'z'.val)) := rfl
  have numeral : c.isDigit = (decide (c.val ≥ '0'.val) && decide (c.val ≤ '9'.val)) := rfl
  simp only [isPlain, alpha, upper, lower, numeral, Bool.or_eq_true, Bool.and_eq_true,
    decide_eq_true_eq, UInt32.le_iff_toNat_le, ge_iff_le] at plain
  have code : c.toNat = c.val.toNat := rfl
  have capital : 'Z'.val.toNat = 90 := rfl
  have small : 'z'.val.toNat = 122 := rfl
  have digit : '9'.val.toNat = 57 := rfl
  omega

/-- A character below all ranges is in none of them. -/
theorem inRanges_of_lt {ranges : List (Nat × Nat)} {bound : Nat} {c : Char}
    (above : ∀ range ∈ ranges, bound ≤ range.1) (below : c.toNat < bound) :
    inRanges ranges c = false := by
  unfold inRanges
  rw [List.any_eq_false]
  intro range member inside
  have first := above range member
  simp only [Bool.and_eq_true, decide_eq_true_eq] at inside
  omega

/-- No ASCII character is a mark. -/
theorem inRanges_markRanges {c : Char} (ascii : c.toNat < 128) :
    inRanges markRanges c = false :=
  inRanges_of_lt (by decide +kernel) ascii

/-- Below all runs but the first and below all expansions only the first run counts. -/
theorem mapCase_cons_of_lt {run : CaseRun} {runs : List CaseRun}
    {expansions : List (Nat × List Nat)} {bound : Nat} {c : Char}
    (runsAbove : ∀ r ∈ runs, bound ≤ r.first) (expansionsAbove : ∀ e ∈ expansions, bound ≤ e.1)
    (below : c.toNat < bound) :
    mapCase (run :: runs) expansions c = [(run.image? c.toNat).getD c] := by
  have noRun : runs.findSome? (·.image? c.toNat) = none := by
    rw [List.findSome?_eq_none_iff]
    intro r member
    have first := runsAbove r member
    exact if_neg (by omega)
  have noExpansion : expansions.lookup c.toNat = none := by
    rw [List.lookup_eq_none_iff]
    intro e member
    have first := expansionsAbove e member
    exact bne_iff_ne.mpr (by omega)
  unfold mapCase
  rw [List.findSome?_cons]
  cases run.image? c.toNat with
  | some d => rfl
  | none =>
      dsimp only
      rw [noRun, noExpansion]
      rfl

/-- The lower case of an ASCII character is one character. -/
theorem lowerChar_of_ascii {c : Char} (ascii : c.toNat < 128) : lowerChar c = [c.toLower] := by
  have runs : lowerRuns = ⟨0x41, 0x5A, 1, 32⟩ :: lowerRuns.tail := rfl
  unfold lowerChar
  rw [runs, mapCase_cons_of_lt (by decide +kernel) (by decide) ascii]
  exact forall_ascii (P := fun c => [((⟨0x41, 0x5A, 1, 32⟩ : CaseRun).image? c.toNat).getD c] =
    [c.toLower]) (by decide) ascii

/-- Whether a character may stand in a word of lower-case plain text. -/
def isLowerPlain (c : Char) : Bool :=
  c.isLower || c.isDigit

theorem isLowerPlain_toLower {c : Char} (plain : isPlain c = true) :
    isLowerPlain c.toLower = true :=
  forall_ascii (P := fun c => isPlain c = true → isLowerPlain c.toLower = true)
    (by decide) (ascii_of_isPlain plain) plain

/-! ## Words -/

/-- Text of ASCII characters has a cluster for each. -/
theorem clusters_of_plain : ∀ {cs : List Char}, (∀ c ∈ cs, c.toNat < 128) →
    clusters cs = cs.map ([·])
  | [], _ => rfl
  | c :: cs, ascii => by
      rw [clusters, clusters_of_plain fun d member => ascii d (List.mem_cons_of_mem c member)]
      cases cs with
      | nil => rfl
      | cons d ds =>
          have unmarked := inRanges_markRanges (ascii d (by simp))
          simp only [List.map_cons, attach, unmarked, Bool.false_eq_true, if_false]

/-- Only underscores, hyphens and spaces separate. -/
theorem Cluster.letter_eq_separator_iff {cluster : Cluster} :
    cluster.letter = .separator ↔ cluster = ['_'] ∨ cluster = ['-'] ∨ cluster = [' '] := by
  unfold Cluster.letter
  split
  · rename_i separates
    exact ⟨fun _ => separates, fun _ => rfl⟩
  · rename_i joins
    refine ⟨fun separator => ?_, fun separates => (joins separates).elim⟩
    dsimp only at separator
    repeat' split at separator
    all_goals cases separator

/-- Putting a cluster in front of the first word adds its characters and no others. -/
theorem mem_extendFirst {c : Char} {cluster : Cluster} {rest : List (List Char)}
    {word : List Char} (member : word ∈ extendFirst cluster rest) (inside : c ∈ word) :
    c ∈ cluster ∨ ∃ w ∈ rest, c ∈ w := by
  cases rest with
  | nil =>
      rw [extendFirst, List.mem_singleton] at member
      exact Or.inl (member ▸ inside)
  | cons first others =>
      rw [extendFirst] at member
      rcases List.mem_cons.mp member with rfl | later
      · rcases List.mem_append.mp inside with added | old
        · exact Or.inl added
        · exact Or.inr ⟨first, List.mem_cons_self, old⟩
      · exact Or.inr ⟨word, List.mem_cons_of_mem first later, inside⟩

/-- A word is made of the characters of clusters that do not separate. -/
theorem mem_splitWords {c : Char} : ∀ {cs : List Cluster} {word : List Char},
    word ∈ splitWords cs → c ∈ word →
      ∃ cluster ∈ cs, cluster.letter ≠ .separator ∧ c ∈ cluster
  | [], word, member, inside => by
      rw [splitWords, List.mem_singleton] at member
      rw [member] at inside
      cases inside
  | d :: rest, word, member, inside => by
      have later : (∃ w ∈ splitWords rest, c ∈ w) →
          ∃ cluster ∈ d :: rest, cluster.letter ≠ .separator ∧ c ∈ cluster := by
        rintro ⟨w, among, found⟩
        obtain ⟨cluster, present, joins⟩ := mem_splitWords among found
        exact ⟨cluster, List.mem_cons_of_mem d present, joins⟩
      by_cases separates : d.letter = .separator
      · simp only [splitWords, separates, if_true, List.mem_cons] at member
        rcases member with rfl | among
        · cases inside
        · exact later ⟨word, among, inside⟩
      · have origin : c ∈ d ∨ ∃ w ∈ splitWords rest, c ∈ w := by
          simp only [splitWords, separates, if_false] at member
          split at member
          · exact mem_extendFirst member inside
          · split at member
            · rcases List.mem_cons.mp member with rfl | among
              · exact Or.inl inside
              · exact Or.inr ⟨word, among, inside⟩
            · exact mem_extendFirst member inside
        rcases origin with own | other
        · exact ⟨d, List.mem_cons_self, separates, own⟩
        · exact later other

/-! ## Joined words -/

/-- The text of a layer name as it reaches the words: letters, digits and spaces. -/
def IsSpaced (cs : List Char) : Prop :=
  ∀ c ∈ cs, isPlain c = true ∨ c = ' '

theorem isSpaced_spaced (cs : List Char) : IsSpaced (Naming.spaced cs) := by
  intro c member
  obtain ⟨d, -, rfl⟩ := List.mem_map.mp member
  by_cases plain : isPlain d = true
  · exact Or.inl (by rwa [if_pos plain])
  · exact Or.inr (if_neg plain)

/-- The words of a spaced text are not empty and hold letters and digits only. -/
theorem mem_words {cs : List Char} (spaced : IsSpaced cs) {word : List Char}
    (member : word ∈ words cs) : word ≠ [] ∧ ∀ c ∈ word, isPlain c = true := by
  have ascii : ∀ c ∈ cs, c.toNat < 128 := by
    intro c inside
    rcases spaced c inside with plain | rfl
    · exact ascii_of_isPlain plain
    · decide
  rw [words, List.mem_filter, clusters_of_plain ascii] at member
  refine ⟨by simpa using member.2, fun c inside => ?_⟩
  obtain ⟨cluster, present, joins, own⟩ := mem_splitWords member.1 inside
  obtain ⟨d, among, rfl⟩ := List.mem_map.mp present
  rw [List.mem_singleton.mp own]
  refine (spaced d among).resolve_right fun space => joins ?_
  rw [Cluster.letter_eq_separator_iff, space]
  exact Or.inr (Or.inr rfl)

/-- The lower case of letters and digits is taken one by one. -/
theorem lowerFrom_of_plain : ∀ {cs : List Char} (before : List Char),
    (∀ c ∈ cs, isPlain c = true) → lowerFrom before cs = cs.map Char.toLower
  | [], _, _ => rfl
  | c :: cs, before, plain => by
      have own := plain c List.mem_cons_self
      have noSigma : c ≠ 'Σ' := by
        rintro rfl
        revert own
        decide
      rw [lowerFrom, lowerIn, if_neg noSigma, lowerChar_of_ascii (ascii_of_isPlain own),
        lowerFrom_of_plain (c :: before) fun d member => plain d (List.mem_cons_of_mem c member)]
      rfl

/-- Texts that are put in a row hold what they hold and the separator. -/
theorem mem_intercalate {α : Type} {a separator : α} {pieces : List (List α)}
    (member : a ∈ [separator].intercalate pieces) :
    a = separator ∨ ∃ piece ∈ pieces, a ∈ piece := by
  induction pieces with
  | nil => cases member
  | cons piece rest ih =>
      cases rest with
      | nil =>
          rw [List.intercalate_singleton] at member
          exact Or.inr ⟨piece, List.mem_singleton_self piece, member⟩
      | cons next others =>
          rw [List.intercalate_cons_cons, List.mem_append, List.mem_append] at member
          rcases member with (own | between) | later
          · exact Or.inr ⟨piece, List.mem_cons_self, own⟩
          · exact Or.inl (List.mem_singleton.mp between)
          · refine (ih later).imp id ?_
            rintro ⟨w, among, inside⟩
            exact ⟨w, List.mem_cons_of_mem piece among, inside⟩

/-- Texts in a row begin like the first, if that is not empty. -/
theorem head?_intercalate {α : Type} {separator first : α} {rest : List α}
    {others : List (List α)} :
    ([separator].intercalate ((first :: rest) :: others)).head? = some first := by
  cases others with
  | nil => rw [List.intercalate_singleton, List.head?_cons]
  | cons next more => rw [List.intercalate_cons_cons, List.cons_append, List.cons_append,
      List.head?_cons]

section

variable {cs : List Char}

/-- A word of a spaced text in lower case is not empty and holds lower-case letters and
digits only. -/
theorem mem_map_lowerChars_words (spaced : IsSpaced cs) {word : List Char}
    (member : word ∈ (words cs).map lowerChars) :
    word ≠ [] ∧ ∀ c ∈ word, isLowerPlain c = true := by
  obtain ⟨w, among, rfl⟩ := List.mem_map.mp member
  obtain ⟨filled, plain⟩ := mem_words spaced among
  rw [lowerChars, lowerFrom_of_plain [] plain]
  refine ⟨by simpa using filled, fun c inside => ?_⟩
  obtain ⟨d, own, rfl⟩ := List.mem_map.mp inside
  exact isLowerPlain_toLower (plain d own)

/-- Joined words of a spaced text hold lower-case letters, digits and the separator. -/
theorem mem_joinLower (spaced : IsSpaced cs) {separator c : Char}
    (member : c ∈ joinLower separator cs) : c = separator ∨ isLowerPlain c = true := by
  refine (mem_intercalate member).imp id ?_
  rintro ⟨word, among, inside⟩
  exact (mem_map_lowerChars_words spaced among).2 c inside

/-- Joined words of a spaced text begin with a lower-case letter or a digit. -/
theorem head_joinLower (spaced : IsSpaced cs) {separator c : Char} {rest : List Char}
    (joined : joinLower separator cs = c :: rest) : isLowerPlain c = true := by
  have start : (joinLower separator cs).head? = some c := by rw [joined, List.head?_cons]
  unfold joinLower at start
  cases lowered : (words cs).map lowerChars with
  | nil =>
      rw [lowered] at start
      cases start
  | cons word others =>
      have among : word ∈ (words cs).map lowerChars := by
        rw [lowered]
        exact List.mem_cons_self
      obtain ⟨filled, plain⟩ := mem_map_lowerChars_words spaced among
      obtain ⟨first, more, rfl⟩ := List.exists_cons_of_ne_nil filled
      rw [lowered, head?_intercalate] at start
      exact Option.some.inj start ▸ plain first List.mem_cons_self

end

end Handoff.Text
