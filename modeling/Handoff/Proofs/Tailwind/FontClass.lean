import Handoff.Proofs.Tailwind.Layout
import Handoff.Proofs.Text.Alphabet

/-!
The family that a font class asks for.

`Text.pieces` cuts a text wherever a character separates, and drops what is empty.  Texts that are
joined by a separator are cut into what each of them is cut into (`pieces_intercalate`), so they
are found again exactly if nothing in them separates (`pieces_intercalate_eq_self_iff`).

An arbitrary value stands in brackets, with underscores for spaces.  What a font class has there is
CSS: a string between apostrophes, or identifiers with a space between them
(`Tailwind.cssFamily?`).  The family of a text is read from its classes as it is exactly if there is
no underscore in its name and CSS can write it so (`Tailwind.fontFamily?_names_iff`).
-/

namespace Handoff

namespace Text

/-! ## Pieces -/

section

variable {separates : Char → Bool} {a b s piece : String} {texts : List String}

/-- The pieces of a text between the characters that separate, without the empty ones. -/
def pieces (separates : Char → Bool) (s : String) : List String :=
  ((s.toList.splitOnP separates).filter (!·.isEmpty)).map String.ofList

/-- Whether a character is white space where the values of attributes are lists of words. -/
def isAsciiSpace (c : Char) : Bool :=
  c == ' ' || c == '\t' || c == '\n' || c == '\x0c' || c == '\r'

theorem not_separates_of_mem_splitOnP {cs part : List Char}
    (member : part ∈ cs.splitOnP separates) : ∀ c ∈ part, c ∈ cs ∧ separates c = false := by
  induction cs generalizing part with
  | nil =>
      rw [List.splitOnP_nil, List.mem_singleton] at member
      rw [member]
      exact List.forall_mem_nil _
  | cons d rest ih =>
      have later : ∀ part ∈ rest.splitOnP separates, ∀ c ∈ part, c ∈ d :: rest ∧ separates c = false :=
        fun part among c inside => (ih among c inside).imp_left (List.mem_cons_of_mem d)
      rw [List.splitOnP_cons_eq_if_modifyHead] at member
      split at member
      · rcases List.mem_cons.mp member with rfl | among
        · exact List.forall_mem_nil _
        · exact later part among
      · rename_i kept
        obtain ⟨first, others, parts⟩ :=
          List.exists_cons_of_ne_nil (List.splitOnP_ne_nil separates rest)
        rw [parts, List.modifyHead_cons] at member
        rw [parts] at later
        rcases List.mem_cons.mp member with rfl | among
        · refine List.forall_mem_cons.mpr ⟨⟨List.mem_cons_self, Bool.eq_false_iff.mpr kept⟩, ?_⟩
          exact later first List.mem_cons_self
        · exact later part (List.mem_cons_of_mem first among)

/-- Nothing separates within a piece. -/
theorem not_separates_of_mem_pieces (member : piece ∈ pieces separates s) :
    ∀ c ∈ piece.toList, c ∈ s.toList ∧ separates c = false := by
  obtain ⟨part, among, rfl⟩ := List.mem_map.mp member
  rw [String.toList_ofList]
  exact not_separates_of_mem_splitOnP (List.mem_filter.mp among).1

/-- A text in which nothing separates is a piece. -/
theorem pieces_eq_singleton (present : s ≠ "") (whole : ∀ c ∈ s.toList, separates c = false) :
    pieces separates s = [s] := by
  have filled : s.toList ≠ [] := fun none => present (String.toList_eq_nil_iff.mp none)
  rw [pieces, List.splitOnP_eq_singleton whole, List.filter_cons_of_pos (by simpa using filled)]
  simp

theorem pieces_append {c : Char} (cut : separates c = true) :
    pieces separates (a ++ String.singleton c ++ b) = pieces separates a ++ pieces separates b := by
  have chars : (a ++ String.singleton c ++ b).toList = a.toList ++ c :: b.toList := by
    simp
  rw [pieces, chars, List.splitOnP_append_cons _ _ cut, List.filter_append, List.map_append]
  rfl

/-- Joined texts are cut into what each of them is cut into. -/
theorem pieces_intercalate {c : Char} (cut : separates c = true) (texts : List String) :
    pieces separates ((String.singleton c).intercalate texts) =
      texts.flatMap (pieces separates) := by
  induction texts with
  | nil => rfl
  | cons first rest ih =>
      cases rest with
      | nil => simp
      | cons next rest =>
          rw [String.intercalate_cons_cons, pieces_append cut, ih]
          rfl

/-- Joined texts are found again exactly if nothing in them separates. -/
theorem pieces_intercalate_eq_self_iff {c : Char} (cut : separates c = true)
    (present : ∀ text ∈ texts, text ≠ "") :
    pieces separates ((String.singleton c).intercalate texts) = texts ↔
      ∀ text ∈ texts, ∀ d ∈ text.toList, separates d = false := by
  constructor
  · intro same text member d inside
    rw [← same] at member
    exact (not_separates_of_mem_pieces member d inside).2
  · intro whole
    have each : texts.map (pieces separates) = texts.map ([·]) :=
      List.map_congr_left fun text member =>
        pieces_eq_singleton (present text member) (whole text member)
    rw [pieces_intercalate cut, List.flatMap_def, each, ← List.flatMap_def]
    simp

end

/-! ## One character for another -/

variable {c d : Char} {s : String}

theorem toList_substitute (c d : Char) (s : String) :
    (substitute c [d] s).toList = s.toList.map fun e => if e = c then d else e := by
  rw [substitute, String.toList_ofList, List.map_eq_flatMap]
  refine congrArg (List.flatMap · s.toList) (funext fun e => ?_)
  split <;> rfl

theorem substitute_append (a b : String) :
    substitute c [d] (a ++ b) = substitute c [d] a ++ substitute c [d] b := by
  rw [← String.toList_inj]
  simp only [toList_substitute, String.toList_append, List.map_append]

theorem not_mem_substitute (other : d ≠ c) : c ∉ (substitute c [d] s).toList := by
  rw [toList_substitute]
  intro member
  obtain ⟨e, -, same⟩ := List.mem_map.mp member
  split at same
  · exact other same
  · rename_i kept
    exact kept same

theorem substitute_of_not_mem (absent : c ∉ s.toList) : substitute c [d] s = s := by
  rw [← String.toList_inj, toList_substitute]
  refine (List.map_congr_left fun e member => ?_).trans (List.map_id _)
  refine if_neg ?_
  rintro rfl
  exact absent member

/-- A character that was not there is put back. -/
theorem substitute_substitute (absent : d ∉ s.toList) :
    substitute d [c] (substitute c [d] s) = s := by
  rw [← String.toList_inj, toList_substitute, toList_substitute, List.map_map]
  refine (List.map_congr_left fun e member => ?_).trans (List.map_id _)
  have other : e ≠ d := fun same => absent (same ▸ member)
  by_cases same : e = c <;> simp [same, other]

end Text

namespace Tailwind

open Design (Node)
open Text (Within pieces substitute)

/-! ## Families in CSS -/

/-- Whether a character may stand in a string between apostrophes as it is. -/
def isStringChar (c : Char) : Bool := !(['\'', '\\', '\n', '\r', '\x0c'].contains c)

/-- Whether an identifier may begin with a character. -/
def isNameStart (c : Char) : Bool := c.isAlpha || c == '_' || 0x80 ≤ c.toNat

/-- Whether a character may stand in an identifier as it is. -/
def isNameChar (c : Char) : Bool := isNameStart c || c.isDigit || c == '-'

/-- Whether a text is an identifier, without any escapes. -/
def isIdentifier : List Char → Bool
  | '-' :: '-' :: rest => rest.all isNameChar
  | '-' :: c :: rest => isNameStart c && rest.all isNameChar
  | c :: rest => isNameStart c && rest.all isNameChar
  | [] => false

/-- The family that a string names, by what stands behind its first apostrophe. -/
def stringFamily? (rest : List Char) : Option String :=
  let body := rest.takeWhile isStringChar
  if rest.drop body.length = ['\''] then some (String.ofList body) else none

/-- The family that identifiers name. -/
def wordFamily? (css : String) : Option String :=
  let words := pieces (· == ' ') css
  if words ≠ [] ∧ words.all (isIdentifier ·.toList) = true then some (" ".intercalate words)
  else none

/-- The family that a value names. -/
def cssFamily? (css : String) : Option String :=
  if css.toList.head? = some '\'' then stringFamily? css.toList.tail else wordFamily? css

/-- A string names what is in it, if all of that may stand there. -/
theorem cssFamily?_quoted (s : String) :
    cssFamily? ("'" ++ s ++ "'") = if Within isStringChar s then some s else none := by
  have chars : ("'" ++ s ++ "'").toList = '\'' :: (s.toList ++ ['\'']) := by
    simp
  rw [cssFamily?, chars, List.head?_cons, if_pos rfl, List.tail_cons, stringFamily?]
  by_cases within : Within isStringChar s
  · have body : (s.toList ++ ['\'']).takeWhile isStringChar = s.toList := by
      rw [List.takeWhile_append_of_pos within, List.takeWhile_cons_of_neg (by decide),
        List.append_nil]
    rw [body, List.drop_left, if_pos rfl, if_pos within, String.ofList_toList]
  · -- The string breaks off early, with more behind it than its end.
    have early : ((s.toList ++ ['\'']).takeWhile isStringChar).length < s.toList.length := by
      have shorter := (List.takeWhile_prefix (l := s.toList) isStringChar).length_le
      have whole : (s.toList.takeWhile isStringChar).length ≠ s.toList.length := by
        intro same
        have all := (List.takeWhile_prefix (l := s.toList) isStringChar).eq_of_length same
        exact within fun c member => List.all_eq_true.mp List.all_takeWhile c (all ▸ member)
      rw [List.takeWhile_append, if_neg whole]
      omega
    rw [if_neg within, if_neg]
    intro closed
    have lengths := congrArg List.length closed
    simp only [List.length_drop, List.length_append, List.length_singleton] at lengths
    omega

/-- What a string names is the beginning of it, as far as that may stand there. -/
theorem of_stringFamily? {rest : List Char} {name : String}
    (named : stringFamily? rest = some name) :
    (∀ c ∈ name.toList, c ∈ rest) ∧ Within isStringChar name := by
  unfold stringFamily? at named
  dsimp only at named
  split at named
  · cases named
    rw [String.toList_ofList, Text.within_ofList]
    exact ⟨fun c member => (List.takeWhile_prefix _).subset member,
      fun c member => List.all_eq_true.mp List.all_takeWhile c member⟩
  · cases named

/-- A family is named by the characters of its value. -/
theorem mem_of_cssFamily? {css name : String} (named : cssFamily? css = some name) :
    ∀ c ∈ name.toList, c = ' ' ∨ c ∈ css.toList := by
  intro c member
  unfold cssFamily? at named
  split at named
  · exact .inr (List.mem_of_mem_tail ((of_stringFamily? named).1 c member))
  · unfold wordFamily? at named
    dsimp only at named
    split at named
    · cases named
      refine or_iff_not_imp_left.mpr fun other => ?_
      obtain ⟨word, among, inside⟩ :=
        (Text.mem_toList_intercalate (by simpa using other)).mp member
      exact (Text.not_separates_of_mem_pieces among c inside).1
    · cases named

/-- A text of one word names itself if it is an identifier. -/
theorem cssFamily?_word {s : String} (single : ' ' ∉ s.toList) :
    cssFamily? s = some s ↔ isIdentifier s.toList = true := by
  unfold cssFamily?
  split
  · -- An apostrophe is in no identifier, and in no family that a string names.
    rename_i opened
    obtain ⟨rest, chars⟩ := List.head?_eq_some_iff.mp opened
    refine iff_of_false (fun named => ?_) ?_
    · have own := (of_stringFamily? named).2 '\'' (by rw [chars]; exact List.mem_cons_self)
      revert own
      decide
    · rw [chars, isIdentifier]
      · have start : isNameStart '\'' = false := by decide
        rw [start]
        exact Bool.false_ne_true
      all_goals simp
  · by_cases empty : s = ""
    · rw [empty]
      decide
    · have whole : ∀ c ∈ s.toList, (c == ' ') = false := by
        intro c member
        exact beq_eq_false_iff_ne.mpr fun same => single (same ▸ member)
      rw [wordFamily?, Text.pieces_eq_singleton empty whole]
      simp

/-! ## Families in classes -/

/-- The family that the font class of a list asks for. -/
def fontFamily? (listed : List String) : Option String :=
  (read? (.after "font") listed).bind fun word =>
    (Text.between? "[" "]" word).bind fun css => cssFamily? (substitute '_' [' '] css)

/-- A family that is read from a font class as it is. -/
def Readable (name : String) : Prop :=
  '_' ∉ name.toList ∧
    if ' ' ∈ name.toList then Within isStringChar name else isIdentifier name.toList = true

instance (name : String) : Decidable (Readable name) :=
  inferInstanceAs (Decidable (_ ∧ _))

/-- What stands in the brackets of a font class. -/
def familyCss (name : String) : String :=
  if name.toList.contains ' ' then "'" ++ substitute ' ' ['_'] name ++ "'" else name

theorem family_eq (name : String) : family name = "[" ++ familyCss name ++ "]" := by
  have opening : "['" = "[" ++ "'" := by decide
  have closing : "']" = "'" ++ "]" := by decide
  unfold family familyCss
  split
  · rw [opening, closing]
    simp only [String.append_assoc]
  · rfl

/-- A family is found again in its brackets exactly if it can be read. -/
theorem cssFamily?_familyCss (name : String) :
    cssFamily? (substitute '_' [' '] (familyCss name)) = some name ↔ Readable name := by
  by_cases underscored : '_' ∈ name.toList
  · refine iff_of_false (fun named => ?_) fun readable => readable.1 underscored
    rcases mem_of_cssFamily? named '_' underscored with space | inside
    · cases space
    · exact Text.not_mem_substitute (by decide) inside
  · rw [Readable, familyCss]
    simp only [List.contains_eq_mem, decide_eq_true_eq, underscored, not_false_eq_true, true_and]
    split
    · have quote : substitute '_' [' '] "'" = "'" := by decide
      rw [Text.substitute_append, Text.substitute_append, quote,
        Text.substitute_substitute underscored, cssFamily?_quoted]
      simp
    · rename_i single
      rw [Text.substitute_of_not_mem underscored, cssFamily?_word single]

/-! ## Nodes -/

/-- No color of text is taken for a family. -/
theorem ask?_font_textPaint (fills : List Design.Paint) :
    ask? (.after "font") (textPaint fills) = none := by
  have clip : (Query.after "font").apart (.after "bg") = true := by decide
  have colored : (Query.after "font").apart (.after "text") = true := by decide
  unfold textPaint
  split
  · simp [read?_named_of_apart colored]
  · rw [ask?_append, (spelled_gradient _ _).ask? (by decide)]
    simp [read?_named_of_apart clip, read?_named_of_apart colored]
  all_goals rfl

/-- The first font class of a node has the family of its text. -/
theorem read?_font_names (rounding : Bool) (parent : Option Node) (n : Node) :
    read? (.after "font") (names (classes rounding parent n)) =
      n.box.style.text.map fun t => family t.typography.family := by
  rw [read?_of_aspect .text [] nofun (by decide)]
  cases present : n.box.style.text with
  | none =>
      rw [aspect_text_none present]
      rfl
  | some t =>
      rw [aspect_text present, text, ask?_append, ask?_append, ask?_append, ask?_font_textPaint,
        typography]
      simp [read?_after_named]

/-- The family of a text is read from its classes as it is exactly if it can be. -/
theorem fontFamily?_names_iff {rounding : Bool} {parent : Option Node} {n : Node}
    {t : Design.TextStyle} (present : n.box.style.text = some t) :
    fontFamily? (names (classes rounding parent n)) = some t.typography.family ↔
      Readable t.typography.family := by
  rw [fontFamily?, read?_font_names, present, Option.map_some, Option.bind_some, family_eq,
    Text.between?_append, Option.bind_some, cssFamily?_familyCss]

end Tailwind

end Handoff
