import Handoff.Proofs.Text.Words

/-!
Names in snake case, and what the other identifier styles make of them.

A name in snake case is put together from pieces, each of lower-case letters only or of digits
only, with an underscore between two of them (`IsSnake`).  The words of such a name are its
pieces again (`words_snake`).  So kebab case loses nothing (`kebab_inj`).

Pascal and camel case drop the underscores and start each piece with a capital.  A number has
no capital: of two numbers side by side it can no longer be told where the first one ends.
`closeNumbers` takes out of a name the underscores between two digits, and
`pascal_eq_iff` and `camel_eq_iff` say that nothing else is lost.
-/

namespace Handoff.Text

open Naming (isPlain)

/-! ## Letters and digits -/

/-- The upper case of an ASCII character is one character. -/
theorem upperChar_of_ascii {c : Char} (ascii : c.toNat < 128) : upperChar c = [c.toUpper] := by
  have runs : upperRuns = ⟨0x61, 0x7A, 1, -32⟩ :: upperRuns.tail := rfl
  unfold upperChar
  rw [runs, mapCase_cons_of_lt (by decide +kernel) (by decide) ascii]
  exact forall_ascii (P := fun c => [((⟨0x61, 0x7A, 1, -32⟩ : CaseRun).image? c.toNat).getD c] =
    [c.toUpper]) (by decide) ascii

/-- A letter or digit on its own is a digit, a capital or a lower-case letter. -/
theorem Cluster.letter_of_isPlain {c : Char} (plain : isPlain c = true) :
    Cluster.letter [c] = if c.isDigit then .digit else if c.isUpper then .upper else .lower := by
  have ascii := ascii_of_isPlain plain
  have raised : upperChars [c] = [c.toUpper] := by
    rw [upperChars, List.flatMap_singleton, upperChar_of_ascii ascii]
  have lowered : lowerChars [c] = [c.toLower] := by
    rw [lowerChars, lowerFrom_of_plain [] (by simpa using plain), List.map_singleton]
  unfold Cluster.letter
  rw [raised, lowered]
  exact forall_ascii (P := fun c => isPlain c = true →
    (if [c] = ['_'] ∨ [c] = ['-'] ∨ [c] = [' '] then Letter.separator
      else if [c].all Char.isDigit then .digit
      else if [c.toUpper] = [c.toLower] then .other
      else if [c] = [c.toUpper] then .upper
      else if [c] = [c.toLower] then .lower
      else .other) = if c.isDigit then .digit else if c.isUpper then .upper else .lower)
    (by decide) ascii plain

theorem Cluster.letter_ne_separator {c : Char} (plain : isPlain c = true) :
    Cluster.letter [c] ≠ .separator := by
  rw [Cluster.letter_of_isPlain plain]
  repeat' split
  all_goals exact Letter.noConfusion

/-- A word ends between a letter and a digit. -/
theorem isDigit_eq_of_splitsBefore {c d : Char} {next : Option Letter} (first : isPlain c = true)
    (second : isPlain d = true)
    (joined : (Cluster.letter [c]).splitsBefore (Cluster.letter [d]) next = false) :
    c.isDigit = d.isDigit := by
  rw [Cluster.letter_of_isPlain first, Cluster.letter_of_isPlain second] at joined
  cases digit : c.isDigit <;> cases digit' : d.isDigit <;> cases upper : c.isUpper <;>
    cases upper' : d.isUpper <;>
    simp_all [Letter.splitsBefore]

/-! ## Words of one sort -/

/-- Letters only, or digits only. -/
def IsUniform (word : List Char) : Prop :=
  (∀ c ∈ word, c.isAlpha = true) ∨ ∀ c ∈ word, c.isDigit = true

theorem isUniform_singleton {c : Char} (plain : isPlain c = true) : IsUniform [c] := by
  rw [isPlain, Bool.or_eq_true] at plain
  exact plain.imp (fun alpha d member => List.mem_singleton.mp member ▸ alpha)
    (fun digit d member => List.mem_singleton.mp member ▸ digit)

theorem IsUniform.cons {c d : Char} {word : List Char} (uniform : IsUniform (d :: word))
    (plain : isPlain c = true) (plain' : isPlain d = true) (same : c.isDigit = d.isDigit) :
    IsUniform (c :: d :: word) := by
  have exclusive : ∀ {e : Char}, isPlain e = true → e.isAlpha = true → e.isDigit = false :=
    fun {e} own => forall_ascii (P := fun e => e.isAlpha = true → e.isDigit = false) (by decide)
      (ascii_of_isPlain own)
  rcases uniform with letters | digits
  · have letter : c.isAlpha = true := by
      have noDigit := same.trans (exclusive plain' (letters d List.mem_cons_self))
      simpa [isPlain, noDigit] using plain
    exact .inl (List.forall_mem_cons.mpr ⟨letter, letters⟩)
  · exact .inr (List.forall_mem_cons.mpr ⟨same.trans (digits d List.mem_cons_self), digits⟩)

/-- A separator ends the word before it, if there is one. -/
theorem splitWords_separator {cluster : Cluster} (separates : cluster.letter = .separator)
    (rest : List Cluster) : splitWords (cluster :: rest) = [] :: splitWords rest := by
  simp only [splitWords, separates, if_true]

/-- What does not separate stands at the start of the first word. -/
theorem exists_splitWords_cons {c : Char} (joins : Cluster.letter [c] ≠ .separator)
    (rest : List Cluster) : ∃ word others, splitWords ([c] :: rest) = (c :: word) :: others := by
  have extended : ∀ words : List (List Char), ∃ word others,
      extendFirst [c] words = (c :: word) :: others := by
    intro words
    cases words with
    | nil => exact ⟨[], [], rfl⟩
    | cons first others => exact ⟨first, others, rfl⟩
  cases rest with
  | nil =>
      simp only [splitWords, joins, if_false]
      exact extended _
  | cons d more =>
      simp only [splitWords, joins, if_false]
      split
      · exact ⟨[], _, rfl⟩
      · exact extended _

theorem letter_space : Cluster.letter [' '] = .separator :=
  Cluster.letter_eq_separator_iff.mpr (.inr (.inr rfl))

/-- The words of a spaced text are uniform. -/
theorem isUniform_of_mem_splitWords : ∀ {cs : List Char}, IsSpaced cs →
    ∀ word ∈ splitWords (cs.map ([·])), IsUniform word
  | [], _, word, member => by
      rw [List.map_nil, splitWords, List.mem_singleton] at member
      rw [member]
      exact .inl (List.forall_mem_nil _)
  | c :: rest, spaced, word, member => by
      obtain ⟨own, others⟩ := List.forall_mem_cons.mp spaced
      have later := isUniform_of_mem_splitWords others
      rcases own with plain | rfl
      · have joins := Cluster.letter_ne_separator plain
        cases rest with
        | nil =>
            simp only [List.map_cons, List.map_nil, splitWords, joins, if_false, extendFirst,
              List.append_nil, List.mem_singleton] at member
            rw [member]
            exact isUniform_singleton plain
        | cons d more =>
            simp only [List.map_cons] at member later
            rw [splitWords, if_neg joins] at member
            split at member
            · rcases List.mem_cons.mp member with rfl | among
              · exact isUniform_singleton plain
              · exact later word among
            · rename_i joined
              rcases others d List.mem_cons_self with plain' | rfl
              · -- The letter or digit is put in front of the word that begins with the next.
                obtain ⟨first, after, split⟩ :=
                  exists_splitWords_cons (Cluster.letter_ne_separator plain') (more.map ([·]))
                rw [split] at member later
                rcases List.mem_cons.mp member with rfl | among
                · exact (later _ List.mem_cons_self).cons plain plain'
                    (isDigit_eq_of_splitsBefore plain plain' (Bool.eq_false_iff.mpr joined))
                · exact later word (List.mem_cons_of_mem _ among)
              · rw [splitWords_separator letter_space] at member later
                rcases List.mem_cons.mp member with rfl | among
                · exact isUniform_singleton plain
                · exact later word (List.mem_cons_of_mem _ among)
      · rw [List.map_cons, splitWords_separator letter_space] at member
        rcases List.mem_cons.mp member with rfl | among
        · exact .inl (List.forall_mem_nil _)
        · exact later word among

/-! ## Pieces -/

/-- A piece of a name in snake case. -/
def IsPiece (word : List Char) : Prop :=
  word ≠ [] ∧ ((∀ c ∈ word, c.isLower = true) ∨ ∀ c ∈ word, c.isDigit = true)

theorem isPiece_of_all_isLower {word : List Char} (filled : word ≠ [])
    (letters : word.all Char.isLower = true) : IsPiece word :=
  ⟨filled, .inl (List.all_eq_true.mp letters)⟩

/-- The words of a spaced text in lower case are pieces. -/
theorem isPiece_of_mem_words {cs : List Char} (spaced : IsSpaced cs) {word : List Char}
    (member : word ∈ (words cs).map lowerChars) : IsPiece word := by
  obtain ⟨w, among, rfl⟩ := List.mem_map.mp member
  obtain ⟨filled, plain⟩ := mem_words spaced among
  have ascii : ∀ c ∈ cs, c.toNat < 128 := by
    intro c inside
    rcases spaced c inside with plain | rfl
    · exact ascii_of_isPlain plain
    · decide
  rw [words, List.mem_filter, clusters_of_plain ascii] at among
  rw [lowerChars, lowerFrom_of_plain [] plain]
  refine ⟨by simpa using filled, ?_⟩
  refine (isUniform_of_mem_splitWords spaced w among.1).imp ?_ ?_
  · intro letters c inside
    obtain ⟨d, own, rfl⟩ := List.mem_map.mp inside
    exact forall_ascii (P := fun d => d.isAlpha = true → d.toLower.isLower = true) (by decide)
      (ascii_of_isPlain (plain d own)) (letters d own)
  · intro digits c inside
    obtain ⟨d, own, rfl⟩ := List.mem_map.mp inside
    exact forall_ascii (P := fun d => d.isDigit = true → d.toLower.isDigit = true) (by decide)
      (ascii_of_isPlain (plain d own)) (digits d own)

theorem isPlain_of_isLower {c : Char} (lower : c.isLower = true) : isPlain c = true := by
  have alpha : c.isAlpha = (c.isUpper || c.isLower) := rfl
  rw [Naming.isPlain, alpha, lower, Bool.or_true, Bool.true_or]

theorem isDigit_eq_false_of_isLower {c : Char} (lower : c.isLower = true) : c.isDigit = false :=
  forall_ascii (P := fun c => c.isLower = true → c.isDigit = false) (by decide)
    (ascii_of_isPlain (isPlain_of_isLower lower)) lower

section

variable {word : List Char}

theorem IsPiece.isPlain (piece : IsPiece word) {c : Char} (inside : c ∈ word) :
    isPlain c = true := by
  rcases piece.2 with letters | digits
  · exact isPlain_of_isLower (letters c inside)
  · simp [Naming.isPlain, digits c inside]

theorem IsPiece.lowerChars_eq (piece : IsPiece word) : lowerChars word = word := by
  rw [lowerChars, lowerFrom_of_plain [] fun c inside => piece.isPlain inside]
  refine (List.map_congr_left fun c inside => ?_).trans (List.map_id _)
  have ascii := ascii_of_isPlain (piece.isPlain inside)
  rcases piece.2 with letters | digits
  · exact forall_ascii (P := fun c => c.isLower = true → c.toLower = c) (by decide) ascii
      (letters c inside)
  · exact forall_ascii (P := fun c => c.isDigit = true → c.toLower = c) (by decide) ascii
      (digits c inside)

/-- No word ends between two characters of a piece. -/
theorem not_splitsBefore {c d : Char} {next : Option Letter}
    (alike : (c.isLower = true ∧ d.isLower = true) ∨ (c.isDigit = true ∧ d.isDigit = true)) :
    (Cluster.letter [c]).splitsBefore (Cluster.letter [d]) next = false := by
  have lower : ∀ {e : Char}, e.isLower = true → Cluster.letter [e] = .lower := by
    intro e lower
    have plain := isPlain_of_isLower lower
    rw [Cluster.letter_of_isPlain plain]
    exact forall_ascii (P := fun e => e.isLower = true →
      (if e.isDigit then Letter.digit else if e.isUpper then .upper else .lower) = .lower)
      (by decide) (ascii_of_isPlain plain) lower
  have digit : ∀ {e : Char}, e.isDigit = true → Cluster.letter [e] = .digit := by
    intro e digit
    have plain : Naming.isPlain e = true := by simp [Naming.isPlain, digit]
    rw [Cluster.letter_of_isPlain plain, if_pos digit]
  rcases alike with ⟨first, second⟩ | ⟨first, second⟩
  · rw [lower first, lower second]
    rfl
  · rw [digit first, digit second]
    rfl

/-- A piece is a word if nothing but a separator comes after it. -/
theorem splitWords_piece : ∀ {word : List Char}, IsPiece word → ∀ {rest : List Cluster}
    {others : List (List Char)}, (∀ d, rest.head? = some d → d.letter = .separator) →
      splitWords rest = [] :: others → splitWords (word.map ([·]) ++ rest) = word :: others
  | [], piece, _, _, _, _ => (piece.1 rfl).elim
  | [c], piece, rest, others, ends, after => by
      have joins := Cluster.letter_ne_separator (piece.isPlain List.mem_cons_self)
      rw [List.map_cons, List.map_nil, List.singleton_append]
      rcases rest with _ | ⟨d, more⟩
      · rw [splitWords, List.cons.injEq] at after
        rw [splitWords, if_neg joins, splitWords, extendFirst, ← after.2]
        rfl
      · rw [splitWords, if_neg joins, ends d List.head?_cons, after, if_neg, extendFirst]
        · rfl
        · cases Cluster.letter [c] <;> exact Bool.false_ne_true
  | c :: d :: word, piece, rest, others, ends, after => by
      have joins := Cluster.letter_ne_separator (piece.isPlain List.mem_cons_self)
      have shorter : IsPiece (d :: word) :=
        ⟨List.cons_ne_nil d word, piece.2.imp (fun all e member => all e (.tail c member))
          fun all e member => all e (.tail c member)⟩
      have alike : (c.isLower = true ∧ d.isLower = true) ∨
          (c.isDigit = true ∧ d.isDigit = true) :=
        piece.2.imp (fun all => ⟨all c (by simp), all d (by simp)⟩)
          fun all => ⟨all c (by simp), all d (by simp)⟩
      have inner := splitWords_piece shorter ends after
      rw [List.map_cons, List.cons_append] at inner
      rw [List.map_cons, List.map_cons, List.cons_append, List.cons_append, splitWords,
        if_neg joins, inner, not_splitsBefore alike]
      rfl

end

/-! ## Snake case -/

/-- Whether a name is put together from pieces, at least one. -/
def IsSnake (name : List Char) : Prop :=
  ∃ pieces, pieces ≠ [] ∧ name = ['_'].intercalate pieces ∧ ∀ word ∈ pieces, IsPiece word

/-- The words of a name put together from pieces are its pieces. -/
theorem words_join {separator : Char} (separates : Cluster.letter [separator] = .separator)
    (plain : separator.toNat < 128) {pieces : List (List Char)}
    (all : ∀ word ∈ pieces, IsPiece word) : words ([separator].intercalate pieces) = pieces := by
  have filled : ∀ word ∈ pieces, (!word.isEmpty) = true := by
    intro word member
    simpa using (all word member).1
  have ascii : ∀ c ∈ [separator].intercalate pieces, c.toNat < 128 := by
    intro c member
    rcases mem_intercalate member with rfl | ⟨word, among, inside⟩
    · exact plain
    · exact ascii_of_isPlain ((all word among).isPlain inside)
  rcases pieces with _ | ⟨first, rest⟩
  · rfl
  · have split :
        splitWords (([separator].intercalate (first :: rest)).map ([·])) = first :: rest := by
      clear ascii filled
      induction rest generalizing first with
      | nil =>
          have only : splitWords (first.map ([·]) ++ []) = [first] :=
            splitWords_piece (all first List.mem_cons_self) (fun _ none => nomatch none) rfl
          rwa [List.intercalate_singleton, ← List.append_nil (first.map ([·]))]
      | cons next rest ih =>
          have later := ih next fun word member => all word (List.mem_cons_of_mem first member)
          have next_separates : ∀ d : Cluster, some [separator] = some d →
              d.letter = .separator := fun d same => Option.some.inj same ▸ separates
          rw [List.intercalate_cons_cons, List.append_assoc, List.map_append]
          refine splitWords_piece (all first List.mem_cons_self) next_separates ?_
          rw [List.map_append, List.map_singleton, List.singleton_append,
            splitWords_separator separates, later]
    rw [words, clusters_of_plain ascii, split, List.filter_eq_self.mpr filled]

/-- The words of a name in snake case are its pieces. -/
theorem words_snake {pieces : List (List Char)} (all : ∀ word ∈ pieces, IsPiece word) :
    words (['_'].intercalate pieces) = pieces :=
  words_join (Cluster.letter_eq_separator_iff.mpr (.inl rfl)) (by decide) all

/-- The words of a name in kebab case are its pieces, too. -/
theorem words_kebab {pieces : List (List Char)} (all : ∀ word ∈ pieces, IsPiece word) :
    words (['-'].intercalate pieces) = pieces :=
  words_join (Cluster.letter_eq_separator_iff.mpr (.inr (.inl rfl))) (by decide) all

/-! ## Kebab case -/

section

variable {a b : String}

/-- Kebab case keeps the pieces of a name. -/
theorem toList_kebab {pieces : List (List Char)} (all : ∀ word ∈ pieces, IsPiece word)
    (joined : a.toList = ['_'].intercalate pieces) :
    (kebab a).toList = ['-'].intercalate pieces := by
  have lowered : pieces.map lowerChars = pieces :=
    (List.map_congr_left fun word member => (all word member).lowerChars_eq).trans
      (List.map_id pieces)
  rw [kebab, String.toList_ofList, joinLower, joined, words_snake all, lowered]

theorem mem_kebab (snake : IsSnake a.toList) :
    ∀ c ∈ (kebab a).toList, c = '-' ∨ isPlain c = true := by
  obtain ⟨pieces, -, joined, all⟩ := snake
  intro c member
  rw [toList_kebab all joined] at member
  exact (mem_intercalate member).imp_right fun ⟨word, among, inside⟩ =>
    (all word among).isPlain inside

/-- Kebab case tells names in snake case apart. -/
theorem kebab_inj (first : IsSnake a.toList) (second : IsSnake b.toList) :
    kebab a = kebab b ↔ a = b := by
  refine ⟨fun same => ?_, congrArg kebab⟩
  obtain ⟨pieces, filled, joined, all⟩ := first
  obtain ⟨pieces', filled', joined', all'⟩ := second
  have chars := congrArg String.toList same
  rw [toList_kebab all joined, toList_kebab all' joined'] at chars
  have hyphenless : ∀ {words : List (List Char)}, (∀ word ∈ words, IsPiece word) →
      ∀ word ∈ words, '-' ∉ word := by
    intro words all word member inside
    have plain := (all word member).isPlain inside
    revert plain
    decide
  have pieces_eq := congrArg (List.splitOn '-') chars
  rw [List.splitOn_intercalate '-' (hyphenless all) filled,
    List.splitOn_intercalate '-' (hyphenless all') filled'] at pieces_eq
  rw [← String.toList_inj, joined, joined', pieces_eq]

end

/-! ## Capitals -/

/-- A name without its underscores, a capital in the place of what follows one. -/
def raise (start : Bool) : List Char → List Char
  | [] => []
  | c :: cs =>
    if c = '_' then raise true cs else (if start then c.toUpper else c) :: raise false cs

/-- A name without the underscores that stand between two digits; `after` says whether a digit
came before. -/
def closeDigits (after : Bool) : List Char → List Char
  | [] => []
  | c :: cs =>
    if c = '_' ∧ after = true ∧ cs.head?.any Char.isDigit = true then closeDigits false cs
    else c :: closeDigits c.isDigit cs

/-- A name without the underscores that stand between two digits. -/
def closeNumbers (name : String) : String :=
  String.ofList (closeDigits false name.toList)

/-- A text with an underscore put in front of every capital and of every digit after a letter,
and all in lower case; `after` says whether a letter came before. -/
def lowerCapitals (after : Bool) : List Char → List Char
  | [] => []
  | c :: cs =>
    if c.isUpper then '_' :: c.toLower :: lowerCapitals true cs
    else if c.isDigit then (if after then ['_'] else []) ++ c :: lowerCapitals false cs
    else c :: lowerCapitals true cs

section

variable {word : List Char}

theorem IsPiece.ne_underscore (piece : IsPiece word) {c : Char} (inside : c ∈ word) : c ≠ '_' := by
  rintro rfl
  exact absurd (piece.isPlain inside) (by decide)

/-- Within a piece nothing is raised. -/
theorem raise_append : ∀ {word : List Char}, (∀ c ∈ word, c ≠ '_') → ∀ rest : List Char,
    raise false (word ++ rest) = word ++ raise false rest
  | [], _, _ => rfl
  | c :: cs, solid, rest => by
      obtain ⟨own, others⟩ := List.forall_mem_cons.mp solid
      rw [List.cons_append, raise, if_neg own, raise_append others]
      rfl

theorem IsPiece.capitalized_eq {c : Char} {cs : List Char} (piece : IsPiece (c :: cs)) :
    capitalized (c :: cs) = c.toUpper :: cs := by
  have tail : lowerChars cs = cs := by
    cases cs with
    | nil => rfl
    | cons d ds =>
        exact IsPiece.lowerChars_eq ⟨List.cons_ne_nil d ds,
          piece.2.imp (fun all e member => all e (.tail c member))
            fun all e member => all e (.tail c member)⟩
  rw [capitalized, upperChar_of_ascii (ascii_of_isPlain (piece.isPlain List.mem_cons_self)), tail]
  rfl

/-- After an underscore a piece is raised as a word on its own is. -/
theorem raise_piece (piece : IsPiece word) (start : Bool) (rest : List Char) :
    raise start ('_' :: (word ++ rest)) = capitalized word ++ raise false rest := by
  obtain ⟨c, cs, rfl⟩ := List.exists_cons_of_ne_nil piece.1
  rw [raise, if_pos rfl, List.cons_append, raise,
    if_neg (piece.ne_underscore List.mem_cons_self),
    raise_append fun d member => piece.ne_underscore (List.mem_cons_of_mem c member),
    piece.capitalized_eq]
  rfl

/-- Whether a piece is a number. -/
def isNumber (word : List Char) : Bool :=
  word.all Char.isDigit

theorem IsPiece.isDigit_eq (piece : IsPiece word) {c : Char} (inside : c ∈ word) :
    c.isDigit = isNumber word := by
  rcases piece.2 with letters | digits
  · have noDigit := isDigit_eq_false_of_isLower (letters c inside)
    rw [noDigit, isNumber, eq_comm, List.all_eq_false]
    exact ⟨c, inside, Bool.eq_false_iff.mp noDigit⟩
  · rw [digits c inside, isNumber, eq_comm, List.all_eq_true]
    exact digits

theorem IsPiece.isUpper_eq (piece : IsPiece word) {c : Char} (inside : c ∈ word) :
    c.isUpper = false := by
  have ascii := ascii_of_isPlain (piece.isPlain inside)
  rcases piece.2 with letters | digits
  · exact forall_ascii (P := fun c => c.isLower = true → c.isUpper = false) (by decide) ascii
      (letters c inside)
  · exact forall_ascii (P := fun c => c.isDigit = true → c.isUpper = false) (by decide) ascii
      (digits c inside)

theorem closeDigits_append {digit : Bool} (rest : List Char) : ∀ {word : List Char},
    (∀ c ∈ word, c.isDigit = digit ∧ c ≠ '_') →
      closeDigits digit (word ++ rest) = word ++ closeDigits digit rest
  | [], _ => rfl
  | c :: cs, alike => by
      obtain ⟨⟨own, solid⟩, others⟩ := List.forall_mem_cons.mp alike
      rw [List.cons_append, closeDigits, if_neg (fun between => solid between.1), own,
        closeDigits_append rest others, List.cons_append]

theorem lowerCapitals_append {digit : Bool} (rest : List Char) : ∀ {word : List Char},
    (∀ c ∈ word, c.isDigit = digit ∧ c.isUpper = false) →
      lowerCapitals (!digit) (word ++ rest) = word ++ lowerCapitals (!digit) rest
  | [], _ => rfl
  | c :: cs, alike => by
      obtain ⟨⟨own, small⟩, others⟩ := List.forall_mem_cons.mp alike
      have inner := lowerCapitals_append rest others
      rw [List.cons_append, lowerCapitals, small, own, if_neg Bool.false_ne_true]
      cases digit with
      | true => exact congrArg (c :: ·) inner
      | false => exact congrArg (c :: ·) inner

/-- The underscore in front of a piece is closed up if the piece and what came before are
numbers. -/
theorem closeDigits_piece (piece : IsPiece word) (after : Bool) (rest : List Char) :
    closeDigits after ('_' :: (word ++ rest)) =
      (if after && isNumber word then [] else ['_']) ++
        (word ++ closeDigits (isNumber word) rest) := by
  have alike : ∀ c ∈ word, c.isDigit = isNumber word ∧ c ≠ '_' :=
    fun c inside => ⟨piece.isDigit_eq inside, piece.ne_underscore inside⟩
  obtain ⟨c, cs, rfl⟩ := List.exists_cons_of_ne_nil piece.1
  have own : c.isDigit = isNumber (c :: cs) := piece.isDigit_eq List.mem_cons_self
  have solid : c ≠ '_' := piece.ne_underscore List.mem_cons_self
  -- Whatever came before, the first character of the piece decides how it goes on.
  have inner : ∀ before : Bool, closeDigits before (c :: cs ++ rest) =
      c :: cs ++ closeDigits (isNumber (c :: cs)) rest := by
    intro before
    rw [List.cons_append, closeDigits, if_neg (fun between => solid between.1), own,
      closeDigits_append rest fun d inside => alike d (List.mem_cons_of_mem c inside),
      List.cons_append]
  rw [closeDigits, inner, inner, List.cons_append, List.head?_cons, Option.any_some, own]
  cases after <;> cases isNumber (c :: cs) <;> rfl

/-- A capital gets its underscore back, and so does a number after a letter. -/
theorem lowerCapitals_piece (piece : IsPiece word) (after : Bool) (rest : List Char) :
    lowerCapitals (!after) (capitalized word ++ rest) =
      (if after && isNumber word then [] else ['_']) ++
        (word ++ lowerCapitals (!isNumber word) rest) := by
  have alike : ∀ c ∈ word, c.isDigit = isNumber word ∧ c.isUpper = false :=
    fun c inside => ⟨piece.isDigit_eq inside, piece.isUpper_eq inside⟩
  obtain ⟨c, cs, rfl⟩ := List.exists_cons_of_ne_nil piece.1
  have ascii := ascii_of_isPlain (piece.isPlain List.mem_cons_self)
  obtain ⟨own, small⟩ := alike c List.mem_cons_self
  have tail := lowerCapitals_append rest fun d inside => alike d (List.mem_cons_of_mem c inside)
  rw [piece.capitalized_eq, List.cons_append, lowerCapitals]
  rcases piece.2 with letters | digits
  · have capital : c.toUpper.isUpper = true ∧ c.toUpper.toLower = c ∧ c.isDigit = false :=
      forall_ascii (P := fun c => c.isLower = true →
        c.toUpper.isUpper = true ∧ c.toUpper.toLower = c ∧ c.isDigit = false) (by decide) ascii
        (letters c List.mem_cons_self)
    rw [← own, capital.2.2] at tail ⊢
    rw [if_pos capital.1, capital.2.1, Bool.and_false]
    exact congrArg (fun cs => '_' :: c :: cs) tail
  · have unchanged : c.toUpper = c ∧ c.isDigit = true :=
      forall_ascii (P := fun c => c.isDigit = true → c.toUpper = c ∧ c.isDigit = true)
        (by decide) ascii (digits c List.mem_cons_self)
    rw [← own, unchanged.2] at tail ⊢
    rw [unchanged.1, small, if_neg Bool.false_ne_true, unchanged.2, if_pos rfl, Bool.and_true]
    cases after with
    | true => exact congrArg (c :: ·) tail
    | false => exact congrArg (fun cs => '_' :: c :: cs) tail

end

/-! ## Pascal and camel case -/

section

variable {pieces : List (List Char)} {a b : String}

theorem cons_intercalate (filled : pieces ≠ []) :
    '_' :: ['_'].intercalate pieces = pieces.flatMap ('_' :: ·) := by
  obtain ⟨first, rest, rfl⟩ := List.exists_cons_of_ne_nil filled
  induction rest generalizing first with
  | nil => rw [List.intercalate_singleton, List.flatMap_singleton]
  | cons next rest ih =>
      rw [List.intercalate_cons_cons, List.flatMap_cons, ← ih next (List.cons_ne_nil next rest),
        List.append_assoc, List.singleton_append, List.cons_append]

theorem raise_flatMap (all : ∀ word ∈ pieces, IsPiece word) :
    raise false (pieces.flatMap ('_' :: ·)) = pieces.flatMap capitalized := by
  induction pieces with
  | nil => rfl
  | cons word rest ih =>
      obtain ⟨own, others⟩ := List.forall_mem_cons.mp all
      rw [List.flatMap_cons, List.flatMap_cons, List.cons_append, raise_piece own, ih others]

/-- What can be read back from the capitals is the name up to underscores between digits. -/
theorem lowerCapitals_flatMap (all : ∀ word ∈ pieces, IsPiece word) (after : Bool) :
    lowerCapitals (!after) (pieces.flatMap capitalized) =
      closeDigits after (pieces.flatMap ('_' :: ·)) := by
  induction pieces generalizing after with
  | nil => rfl
  | cons word rest ih =>
      obtain ⟨own, others⟩ := List.forall_mem_cons.mp all
      rw [List.flatMap_cons, List.flatMap_cons, List.cons_append, lowerCapitals_piece own,
        closeDigits_piece own, ih others]

/-- Underscores between digits do not show once the name is raised. -/
theorem raise_closeDigits (start after : Bool) (cs : List Char)
    (apart : after = true → start = false) :
    raise start (closeDigits after cs) = raise start cs := by
  induction cs generalizing start after with
  | nil => rfl
  | cons c cs ih =>
      rw [closeDigits]
      split
      · rename_i between
        obtain ⟨rfl, digitBefore, digitAfter⟩ := between
        rw [ih start false (fun absurd => nomatch absurd), raise, if_pos rfl, apart digitBefore]
        rcases cs with _ | ⟨d, ds⟩
        · cases digitAfter
        · have digit : d.isDigit = true := digitAfter
          have plain : Naming.isPlain d = true := by simp [Naming.isPlain, digit]
          have unchanged : d.toUpper = d ∧ d ≠ '_' :=
            forall_ascii (P := fun d => d.isDigit = true → d.toUpper = d ∧ d ≠ '_') (by decide)
              (ascii_of_isPlain plain) digit
          rw [raise, raise, if_neg unchanged.2, if_neg unchanged.2, unchanged.1]
          rfl
      · rw [raise, raise]
        by_cases underscore : c = '_'
        · have noDigit : c.isDigit = false := by rw [underscore]; rfl
          rw [if_pos underscore, if_pos underscore, noDigit,
            ih true false (fun absurd => nomatch absurd)]
        · rw [if_neg underscore, if_neg underscore, ih false c.isDigit fun _ => rfl]

theorem toList_pascal (snake : IsSnake a.toList) : (pascal a).toList = raise true a.toList := by
  obtain ⟨pieces, filled, joined, all⟩ := snake
  rw [pascal, String.toList_ofList, joined, words_snake all, ← raise_flatMap all,
    ← cons_intercalate filled, raise, if_pos rfl]

theorem toList_camel (snake : IsSnake a.toList) : (camel a).toList = raise false a.toList := by
  obtain ⟨pieces, filled, joined, all⟩ := snake
  obtain ⟨first, rest, rfl⟩ := List.exists_cons_of_ne_nil filled
  obtain ⟨own, others⟩ := List.forall_mem_cons.mp all
  have split : a.toList = first ++ rest.flatMap ('_' :: ·) := by
    have whole := cons_intercalate (List.cons_ne_nil first rest)
    rw [← joined, List.flatMap_cons, List.cons_append, List.cons.injEq] at whole
    exact whole.2
  rw [camel, joined, words_snake all, ← joined, split,
    raise_append fun c inside => own.ne_underscore inside, raise_flatMap others]
  dsimp only
  rw [String.toList_ofList, own.lowerChars_eq]

/-- Letters and digits stay ones with a capital in front. -/
theorem IsPiece.isPlain_of_mem_capitalized {word : List Char} (piece : IsPiece word) :
    ∀ c ∈ capitalized word, Naming.isPlain c = true := by
  obtain ⟨d, ds, rfl⟩ := List.exists_cons_of_ne_nil piece.1
  have plain := piece.isPlain List.mem_cons_self
  rw [piece.capitalized_eq]
  refine List.forall_mem_cons.mpr ⟨?_, fun c inside => piece.isPlain (.tail d inside)⟩
  exact forall_ascii (P := fun d => Naming.isPlain d = true → Naming.isPlain d.toUpper = true)
    (by decide) (ascii_of_isPlain plain) plain

/-- Nothing but letters and digits is left in Pascal case. -/
theorem isPlain_of_mem_pascal (all : ∀ word ∈ words a.toList, IsPiece word) :
    ∀ c ∈ (pascal a).toList, isPlain c = true := by
  intro c member
  rw [pascal, String.toList_ofList] at member
  obtain ⟨word, among, inside⟩ := List.mem_flatMap.mp member
  exact (all word among).isPlain_of_mem_capitalized c inside

/-- Nothing but letters and digits is left in camel case. -/
theorem isPlain_of_mem_camel (all : ∀ word ∈ words a.toList, IsPiece word) :
    ∀ c ∈ (camel a).toList, isPlain c = true := by
  intro c member
  unfold camel at member
  split at member
  · cases member
  · rename_i first rest split
    rw [split] at all
    obtain ⟨own, others⟩ := List.forall_mem_cons.mp all
    rw [String.toList_ofList, own.lowerChars_eq, List.mem_append] at member
    rcases member with inside | later
    · exact own.isPlain inside
    · obtain ⟨word, among, inside⟩ := List.mem_flatMap.mp later
      exact (others word among).isPlain_of_mem_capitalized c inside

theorem pascal_ne_empty (snake : IsSnake a.toList) : pascal a ≠ "" := by
  obtain ⟨pieces, filled, joined, all⟩ := snake
  obtain ⟨first, rest, rfl⟩ := List.exists_cons_of_ne_nil filled
  obtain ⟨c, cs, rfl⟩ := List.exists_cons_of_ne_nil (all first List.mem_cons_self).1
  intro empty
  have chars := congrArg String.toList empty
  rw [pascal, String.toList_ofList, joined, words_snake all, List.flatMap_cons,
    (all _ List.mem_cons_self).capitalized_eq] at chars
  cases chars

theorem IsSnake.isPiece_of_mem_words (snake : IsSnake a.toList) :
    ∀ word ∈ words a.toList, IsPiece word := by
  obtain ⟨pieces, -, joined, all⟩ := snake
  rwa [joined, words_snake all]

/-- Two names have one Pascal case if and only if they differ at most in underscores between
digits. -/
theorem pascal_eq_iff (first : IsSnake a.toList) (second : IsSnake b.toList) :
    pascal a = pascal b ↔ closeNumbers a = closeNumbers b := by
  have readBack : ∀ {c : String}, IsSnake c.toList →
      lowerCapitals true (pascal c).toList = '_' :: (closeNumbers c).toList := by
    intro c snake
    have raised := toList_pascal snake
    obtain ⟨pieces, filled, joined, all⟩ := snake
    have closed := lowerCapitals_flatMap all false
    rw [← raise_flatMap all, ← cons_intercalate filled, ← joined, raise, if_pos rfl, ← raised]
      at closed
    rw [closeNumbers, String.toList_ofList]
    exact closed
  constructor
  · intro same
    have tails := congrArg (fun name => lowerCapitals true name.toList) same
    rw [readBack first, readBack second, List.cons.injEq] at tails
    exact String.toList_inj.mp tails.2
  · intro same
    have raised : ∀ {c : String}, IsSnake c.toList →
        (pascal c).toList = raise true (closeNumbers c).toList := by
      intro c snake
      rw [toList_pascal snake, closeNumbers, String.toList_ofList, raise_closeDigits true false _
        fun absurd => nomatch absurd]
    rw [← String.toList_inj, raised first, raised second, same]

/-- The same holds of camel case if the names begin with a letter. -/
theorem camel_eq_iff (first : IsSnake a.toList) (second : IsSnake b.toList)
    (letter : a.toList.head?.any Char.isLower = true)
    (letter' : b.toList.head?.any Char.isLower = true) :
    camel a = camel b ↔ closeNumbers a = closeNumbers b := by
  rw [← pascal_eq_iff first second, ← String.toList_inj, ← String.toList_inj, toList_camel first,
    toList_camel second, toList_pascal first, toList_pascal second]
  cases chars : a.toList with
  | nil => simp [chars] at letter
  | cons c cs =>
      cases chars' : b.toList with
      | nil => simp [chars'] at letter'
      | cons d ds =>
          rw [chars, List.head?_cons, Option.any_some] at letter
          rw [chars', List.head?_cons, Option.any_some] at letter'
          have solid : ∀ {e : Char}, e.isLower = true → e ≠ '_' := by
            rintro e lower rfl
            cases lower
          -- The first characters are lower-case letters, which their capitals tell apart.
          have capitals : c.toUpper = d.toUpper ↔ c = d := by
            refine ⟨fun same => ?_, congrArg Char.toUpper⟩
            have back : ∀ {e : Char}, e.isLower = true → e.toUpper.toLower = e := fun {e} lower =>
              forall_ascii (P := fun e => e.isLower = true → e.toUpper.toLower = e) (by decide)
                (ascii_of_isPlain (isPlain_of_isLower lower)) lower
            rw [← back letter, ← back letter', same]
          rw [raise, raise, raise, raise, if_neg (solid letter), if_neg (solid letter'),
            if_neg (solid letter), if_neg (solid letter'), List.cons.injEq, List.cons.injEq]
          exact and_congr_left fun _ => capitals.symm

theorem closeDigits_of_digitless (after : Bool) {cs : List Char}
    (digitless : ∀ c ∈ cs, c.isDigit = false) : closeDigits after cs = cs := by
  induction cs generalizing after with
  | nil => rfl
  | cons c cs ih =>
      obtain ⟨-, others⟩ := List.forall_mem_cons.mp digitless
      have apart : cs.head?.any Char.isDigit = false := by
        cases cs with
        | nil => rfl
        | cons d ds => exact others d List.mem_cons_self
      rw [closeDigits, apart, if_neg fun between => Bool.false_ne_true between.2.2,
        ih c.isDigit others]

/-- No digit gets lost. -/
theorem mem_closeDigits {d : Char} (digit : d.isDigit = true) {cs : List Char}
    (member : d ∈ cs) (after : Bool) : d ∈ closeDigits after cs := by
  induction cs generalizing after with
  | nil => cases member
  | cons c cs ih =>
      rw [closeDigits]
      rcases List.mem_cons.mp member with rfl | later
      · have solid : d ≠ '_' := by
          rintro rfl
          cases digit
        rw [if_neg fun between => solid between.1]
        exact List.mem_cons_self
      · split
        · exact ih later false
        · exact List.mem_cons_of_mem c (ih later c.isDigit)

/-- A name without digits is what closing up makes of itself and of no other name. -/
theorem closeNumbers_eq_iff (digitless : ∀ c ∈ b.toList, c.isDigit = false) :
    closeNumbers a = b ↔ a = b := by
  have unchanged : ∀ {c : String}, (∀ d ∈ c.toList, d.isDigit = false) → closeNumbers c = c := by
    intro c none
    rw [closeNumbers, closeDigits_of_digitless false none, String.ofList_toList]
  constructor
  · intro closed
    have none : ∀ d ∈ a.toList, d.isDigit = false := by
      intro d member
      refine Bool.eq_false_iff.mpr fun digit => ?_
      have kept := mem_closeDigits digit member false
      rw [← String.toList_ofList (l := closeDigits false a.toList), ← closeNumbers, closed] at kept
      exact Bool.eq_false_iff.mp (digitless d kept) digit
    rw [← unchanged none, closed]
  · rintro rfl
    exact unchanged digitless

end

end Handoff.Text
