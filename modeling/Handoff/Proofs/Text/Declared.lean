import Handoff.Decimal.Numeral
import Handoff.Proofs.Text.SnakeCase
import Handoff.Text.Escape
import Handoff.Text.Lines

/-!
Names declared by the lines of a code.

`declaredNames keyword code` reads the lines of a code: one that begins at the left margin with
the keyword declares what stands behind it, up to a space or colon.  The names of codes one
below another are those of each (`declaredNames_below`), and a single line declares at most one
name.  So it matters which texts are of one line: numerals are (`oneLine_plain`), and texts of
which an escape table replaces the line feeds (`oneLine_escapeWith`).
-/

namespace Handoff

namespace Text

variable {a b s : String}

/-! ## Texts of one line -/

/-- A text without a line feed. -/
def OneLine (s : String) : Prop := '\n' ∉ s.toList

instance (s : String) : Decidable (OneLine s) := inferInstanceAs (Decidable ('\n' ∉ s.toList))

@[simp]
theorem oneLine_append : OneLine (a ++ b) ↔ OneLine a ∧ OneLine b := by
  rw [OneLine, String.toList_append, List.mem_append, not_or, OneLine, OneLine]

theorem oneLine_ofList {cs : List Char} : OneLine (String.ofList cs) ↔ '\n' ∉ cs := by
  rw [OneLine, String.toList_ofList]

theorem oneLine_intercalate {texts : List String} {separator : String}
    (between : OneLine separator) (all : ∀ text ∈ texts, OneLine text) :
    OneLine (separator.intercalate texts) := by
  induction texts with
  | nil => exact fun member => nomatch member
  | cons first rest ih =>
      obtain ⟨own, others⟩ := List.forall_mem_cons.mp all
      cases rest with
      | nil => rwa [String.intercalate_singleton]
      | cons next rest =>
          rw [String.intercalate_cons_cons, oneLine_append, oneLine_append]
          exact ⟨⟨own, between⟩, ih others⟩

/-- Escapes without line feeds leave none, be it that there were none or that they are
replaced. -/
theorem oneLine_escapeWith {escape : Char → List Char}
    (kept : ∀ c ∈ s.toList, '\n' ∉ escape c) : OneLine (escapeWith escape s) := by
  rw [escapeWith, oneLine_ofList]
  intro member
  obtain ⟨c, inside, feed⟩ := List.mem_flatMap.mp member
  exact kept c inside feed

theorem oneLine_substitute {c : Char} {replacement : List Char} (single : '\n' ∉ replacement)
    (line : OneLine s) : OneLine (substitute c replacement s) := by
  rw [substitute, oneLine_ofList]
  intro member
  obtain ⟨d, inside, feed⟩ := List.mem_flatMap.mp member
  split at feed
  · exact single feed
  · exact line (List.mem_singleton.mp feed ▸ inside)

theorem substitute_of_oneLine {replacement : List Char} (line : OneLine s) :
    substitute '\n' replacement s = s := by
  have each : ∀ d ∈ s.toList, (if d = '\n' then replacement else [d]) = [d] := by
    intro d inside
    rw [if_neg]
    rintro rfl
    exact line inside
  have kept : s.toList.flatMap (fun d => if d = '\n' then replacement else [d]) = s.toList := by
    rw [List.flatMap_def, List.map_congr_left each, ← List.flatMap_def, List.flatMap_singleton']
  rw [substitute, kept, String.ofList_toList]

theorem feed_not_mem_dartEscape (c : Char) : '\n' ∉ dartEscape c := by
  unfold dartEscape
  split <;> simp_all [eq_comm]

theorem feed_not_mem_swiftEscape (c : Char) : '\n' ∉ swiftEscape c := by
  unfold swiftEscape
  split <;> simp_all [eq_comm]

theorem oneLine_dart (s : String) : OneLine (dart s) :=
  oneLine_escapeWith fun c _ => feed_not_mem_dartEscape c

theorem oneLine_swift (s : String) : OneLine (swift s) :=
  oneLine_escapeWith fun c _ => feed_not_mem_swiftEscape c

theorem oneLine_styleString (line : OneLine s) : OneLine (styleString s) := by
  refine oneLine_escapeWith fun c inside => ?_
  unfold quoteEscape
  split
  · decide
  · exact fun feed => line (List.mem_singleton.mp feed ▸ inside)

theorem oneLine_repr (n : Nat) : OneLine (Nat.repr n) := by
  intro member
  rw [Nat.toList_repr] at member
  have digit := Nat.isDigit_of_mem_toDigits (by decide) (by decide) member
  exact Bool.false_ne_true digit

end Text

/-! ## Numerals -/

namespace Decimal

open Text (OneLine oneLine_append)

theorem Numeral.oneLine_wholeText (n : Numeral) : OneLine n.wholeText := by
  rw [wholeText, oneLine_append]
  refine ⟨?_, Text.oneLine_repr n.whole⟩
  split <;> decide

theorem Numeral.oneLine_digitsText {digits : List Nat} (small : ∀ d ∈ digits, d < 10) :
    OneLine (digitsText digits) := by
  rw [digitsText, Text.oneLine_ofList]
  intro member
  obtain ⟨d, among, feed⟩ := List.mem_map.mp member
  have table : ∀ d < 10, Nat.digitChar d ≠ '\n' := by decide
  exact table d (small d among) feed

theorem Numeral.oneLine_fraction (places : Nat) (b : Binary) :
    OneLine (digitsText (ofBinary places b).fraction) :=
  oneLine_digitsText (lt_ten_of_mem_withoutTrailingZeros fun _ => lt_ten_of_mem_lowDigits)

theorem oneLine_nonFiniteText (x : Float) : OneLine (nonFiniteText x) := by
  unfold nonFiniteText
  repeat' split
  all_goals decide

theorem oneLine_atMost (places : Nat) (x : Float) : OneLine (atMost places x) := by
  unfold atMost
  split
  · rename_i b _
    have digits := Numeral.oneLine_fraction places b
    rw [Numeral.text]
    split
    · exact Numeral.oneLine_wholeText _
    · rw [oneLine_append, oneLine_append]
      exact ⟨⟨Numeral.oneLine_wholeText _, by decide⟩, digits⟩
  · exact oneLine_nonFiniteText x

theorem oneLine_plain (x : Float) : OneLine (plain x) := oneLine_atMost 2 x

theorem oneLine_pointed (x : Float) : OneLine (pointed x) := by
  unfold pointed
  split
  · rename_i b _
    have digits := Numeral.oneLine_fraction 2 b
    rw [Numeral.pointedText]
    split
    · rw [oneLine_append]
      exact ⟨Numeral.oneLine_wholeText _, by decide⟩
    · rw [oneLine_append, oneLine_append]
      exact ⟨⟨Numeral.oneLine_wholeText _, by decide⟩, digits⟩
  · rw [oneLine_append]
    exact ⟨oneLine_nonFiniteText x, by decide⟩

end Decimal

/-! ## Declarations -/

namespace Text

variable {a b s keyword name rest : String}

/-- Whether a character ends the name that a line declares. -/
def endsName (c : Char) : Bool := c == ' ' || c == ':'

/-- The name that a line declares, if it begins with the keyword. -/
def declaredOn (keyword line : List Char) : List String :=
  if keyword.isPrefixOf line then
    [String.ofList ((line.drop keyword.length).takeWhile (!endsName ·))]
  else []

/-- The names that the lines of a code declare. -/
def declaredNames (keyword code : String) : List String :=
  (splitChars '\n' code.toList).flatMap (declaredOn keyword.toList)

theorem splitChars_of_not_mem {separator : Char} {cs : List Char} (none : separator ∉ cs) :
    splitChars separator cs = [cs] := by
  induction cs with
  | nil => rfl
  | cons c cs ih =>
      rw [List.mem_cons, not_or] at none
      obtain ⟨own, others⟩ := none
      rw [splitChars, if_neg (Ne.symm own), ih others]

theorem splitChars_ne_nil (separator : Char) (cs : List Char) : splitChars separator cs ≠ [] := by
  cases cs with
  | nil => exact List.cons_ne_nil _ _
  | cons c cs =>
      rw [splitChars]
      repeat' split
      all_goals exact List.cons_ne_nil _ _

theorem splitChars_append (separator : Char) (cs ds : List Char) :
    splitChars separator (cs ++ separator :: ds) =
      splitChars separator cs ++ splitChars separator ds := by
  induction cs with
  | nil =>
      rw [List.nil_append, splitChars, splitChars, if_pos rfl]
      rfl
  | cons c cs ih =>
      rw [List.cons_append, splitChars, splitChars, ih]
      split
      · rfl
      · obtain ⟨piece, pieces, split⟩ := List.exists_cons_of_ne_nil (splitChars_ne_nil separator cs)
        rw [split]
        rfl

/-- Names are read from the characters of a code. -/
theorem declaredNames_ofList (keyword code : List Char) :
    declaredNames (String.ofList keyword) (String.ofList code) =
      (splitChars '\n' code).flatMap (declaredOn keyword) := by
  rw [declaredNames, String.toList_ofList, String.toList_ofList]

/-- The names of one code and those of another below it. -/
theorem declaredNames_below (keyword a b : String) :
    declaredNames keyword (a ++ "\n" ++ b) =
      declaredNames keyword a ++ declaredNames keyword b := by
  have feed : "\n".toList = ['\n'] := rfl
  rw [declaredNames, String.toList_append, String.toList_append, feed, List.append_assoc,
    List.singleton_append, splitChars_append, List.flatMap_append]
  rfl

theorem declaredNames_of_oneLine (line : OneLine s) :
    declaredNames keyword s = declaredOn keyword.toList s.toList := by
  rw [declaredNames, splitChars_of_not_mem line, List.flatMap_singleton]

/-- A line that begins otherwise declares nothing. -/
theorem declaredNames_inner {first : Char} {others : List Char}
    (keyword_eq : keyword.toList = first :: others) (line : OneLine s)
    (starts : s.toList.head? ≠ some first) : declaredNames keyword s = [] := by
  have other : keyword.toList.isPrefixOf s.toList = false := by
    rw [keyword_eq]
    cases chars : s.toList with
    | nil => rfl
    | cons c cs =>
        have differ : first ≠ c := fun same => starts (by rw [chars, same, List.head?_cons])
        rw [List.isPrefixOf, beq_false_of_ne differ, Bool.false_and]
  rw [declaredNames_of_oneLine line, declaredOn, other, if_neg Bool.false_ne_true]

/-- Whether all of a text is read as one name. -/
def IsName (s : String) : Prop := ∀ c ∈ s.toList, endsName c = false ∧ c ≠ '\n'

theorem IsName.oneLine (isName : IsName s) : OneLine s :=
  fun member => (isName _ member).2 rfl

/-- A line that begins with the keyword declares what stands behind it. -/
theorem declaredNames_keyword (front : OneLine keyword) (isName : IsName name)
    (back : OneLine rest) (ends : rest.toList.head?.all endsName = true) :
    declaredNames keyword (keyword ++ name ++ rest) = [name] := by
  have line : OneLine (keyword ++ name ++ rest) := by
    rw [oneLine_append, oneLine_append]
    exact ⟨⟨front, isName.oneLine⟩, back⟩
  have starts : keyword.toList.isPrefixOf (keyword.toList ++ (name.toList ++ rest.toList)) = true :=
    List.isPrefixOf_iff_prefix.mpr (List.prefix_append _ _)
  have behind : (name.toList ++ rest.toList).takeWhile (!endsName ·) = name.toList := by
    rw [List.takeWhile_append_of_pos fun c inside => by rw [(isName c inside).1]; rfl]
    cases chars : rest.toList with
    | nil => exact List.append_nil _
    | cons c cs =>
        rw [chars, List.head?_cons, Option.all_some] at ends
        rw [List.takeWhile_cons_of_neg (by simp [ends]), List.append_nil]
  rw [declaredNames_of_oneLine line, declaredOn, String.toList_append, String.toList_append,
    List.append_assoc, if_pos starts, List.drop_left, behind, String.ofList_toList]

/-- A block declares what its first line does, if no line below declares anything. -/
theorem declaredNames_block {body closing : String} (front : OneLine keyword)
    (isName : IsName name) (back : OneLine rest) (ends : rest.toList.head?.all endsName = true)
    (inner : declaredNames keyword body = []) (last : declaredNames keyword closing = []) :
    declaredNames keyword (keyword ++ name ++ rest ++ "\n" ++ body ++ "\n" ++ closing) =
      [name] := by
  rw [declaredNames_below, declaredNames_below, declaredNames_keyword front isName back ends, inner,
    last]
  rfl

theorem declaredNames_empty (filled : keyword ≠ "") : declaredNames keyword "" = [] := by
  have chars : keyword.toList ≠ [] := fun none => filled (String.toList_eq_nil_iff.mp none)
  obtain ⟨first, others, keyword_eq⟩ := List.exists_cons_of_ne_nil chars
  exact declaredNames_inner keyword_eq (by decide) (fun none => nomatch none)

/-- The names of codes one below another. -/
theorem declaredNames_lines (filled : keyword ≠ "") (codes : List String) :
    declaredNames keyword ("\n".intercalate codes) = codes.flatMap (declaredNames keyword) := by
  induction codes with
  | nil => exact declaredNames_empty filled
  | cons first rest ih =>
      cases rest with
      | nil => rw [String.intercalate_singleton, List.flatMap_singleton]
      | cons next rest =>
          rw [String.intercalate_cons_cons, declaredNames_below, ih]
          rfl

theorem declaredNames_lines_eq_nil (filled : keyword ≠ "") {codes : List String}
    (none : ∀ code ∈ codes, declaredNames keyword code = []) :
    declaredNames keyword ("\n".intercalate codes) = [] := by
  rw [declaredNames_lines filled, List.flatMap_eq_nil_iff]
  exact none

/-- The same with an empty line between two codes. -/
theorem declaredNames_paragraphs (filled : keyword ≠ "") (codes : List String) :
    declaredNames keyword ("\n\n".intercalate codes) = codes.flatMap (declaredNames keyword) := by
  induction codes with
  | nil => exact declaredNames_empty filled
  | cons first rest ih =>
      cases rest with
      | nil => rw [String.intercalate_singleton, List.flatMap_singleton]
      | cons next rest =>
          have apart : "\n\n".intercalate (first :: next :: rest) =
              first ++ "\n" ++ "" ++ "\n" ++ "\n\n".intercalate (next :: rest) := by
            have gap : first ++ "\n\n" = first ++ "\n" ++ "\n" := by
              rw [String.append_assoc]
              rfl
            rw [String.intercalate_cons_cons, String.append_empty, gap]
          rw [apart, declaredNames_below, declaredNames_below, declaredNames_empty filled,
            List.append_nil, ih]
          rfl

theorem not_mem_of_mem_splitChars {separator : Char} {cs piece : List Char}
    (member : piece ∈ splitChars separator cs) : separator ∉ piece := by
  induction cs generalizing piece with
  | nil =>
      rw [splitChars, List.mem_singleton] at member
      exact member ▸ List.not_mem_nil
  | cons c cs ih =>
      rw [splitChars] at member
      split at member
      · rcases List.mem_cons.mp member with rfl | later
        · exact List.not_mem_nil
        · exact ih later
      · rename_i apart
        split at member
        · rename_i first rest split
          rcases List.mem_cons.mp member with rfl | later
          · rw [List.mem_cons, not_or]
            exact ⟨Ne.symm apart, ih (split ▸ List.mem_cons_self)⟩
          · exact ih (split ▸ List.mem_cons_of_mem first later)
        · rw [List.mem_singleton.mp member, List.mem_singleton]
          exact Ne.symm apart

theorem feed_not_mem_lineChars {cs line : List Char} (member : line ∈ lineChars cs) :
    '\n' ∉ line := by
  have whole : ∀ piece ∈ splitChars '\n' cs, '\n' ∉ piece :=
    fun piece among => not_mem_of_mem_splitChars among
  have ended : ∀ piece ∈ (splitChars '\n' cs).dropLast.map dropReturn, '\n' ∉ piece := by
    intro line among
    obtain ⟨piece, kept, rfl⟩ := List.mem_map.mp among
    intro feed
    refine whole piece (List.dropLast_subset _ kept) ?_
    unfold dropReturn at feed
    split at feed
    · rename_i rest reversed
      have inside : '\n' ∈ piece.reverse := by
        rw [reversed]
        exact List.mem_cons_of_mem _ (List.mem_reverse.mp feed)
      exact List.mem_reverse.mp inside
    · exact feed
  unfold lineChars at member
  dsimp only at member
  split at member
  · rename_i c rest last
    rcases List.mem_append.mp member with among | final
    · exact ended line among
    · exact List.mem_singleton.mp final ▸ whole _ (List.mem_of_getLast? last)
  · exact ended line member

/-- Nothing in an indented code stands at the left margin. -/
theorem declaredNames_indent {first : Char} {others : List Char}
    (keyword_eq : keyword.toList = first :: others) (inner : first ≠ ' ') (width : Nat)
    (code : String) : declaredNames keyword (indent (width + 1) code) = [] := by
  have blank : declaredOn keyword.toList [] = [] := by
    rw [keyword_eq]
    rfl
  have each : ∀ line ∈ (lineChars code.toList).map (indentLine (width + 1)),
      '\n' ∉ line ∧ declaredOn keyword.toList line = [] := by
    intro line member
    obtain ⟨whole, among, rfl⟩ := List.mem_map.mp member
    unfold indentLine
    split
    · exact ⟨List.not_mem_nil, blank⟩
    · constructor
      · rw [List.mem_append, not_or]
        refine ⟨fun feed => ?_, feed_not_mem_lineChars among⟩
        cases (List.mem_replicate.mp feed).2
      · rw [declaredOn, keyword_eq, List.replicate_succ, List.cons_append, List.isPrefixOf,
          beq_false_of_ne inner, Bool.false_and, if_neg Bool.false_ne_true]
  rw [declaredNames, indent, String.toList_ofList]
  revert each
  generalize (lineChars code.toList).map (indentLine (width + 1)) = lines
  intro each
  induction lines with
  | nil => rw [List.intercalate_nil, splitChars, List.flatMap_singleton, blank]
  | cons line rest ih =>
      obtain ⟨⟨single, silent⟩, others⟩ := List.forall_mem_cons.mp each
      cases rest with
      | nil =>
          rw [List.intercalate_singleton, splitChars_of_not_mem single, List.flatMap_singleton,
            silent]
      | cons next rest =>
          rw [List.intercalate_cons_cons, List.append_assoc, List.singleton_append,
            splitChars_append, splitChars_of_not_mem single, List.flatMap_append,
            List.flatMap_singleton, silent, ih others]
          rfl

theorem isName_of_plain {s : String} (plain : ∀ c ∈ s.toList, c = '-' ∨ Naming.isPlain c = true) :
    IsName s := by
  intro c inside
  rcases plain c inside with rfl | own
  · decide
  · exact forall_ascii (P := fun c => Naming.isPlain c = true → endsName c = false ∧ c ≠ '\n')
      (by decide) (ascii_of_isPlain own) own

section

variable {name : String}

theorem isName_kebab (snake : IsSnake name.toList) : IsName (kebab name) :=
  isName_of_plain (mem_kebab snake)

theorem isName_camel (snake : IsSnake name.toList) : IsName (camel name) :=
  isName_of_plain fun c inside => .inr (isPlain_of_mem_camel snake.isPiece_of_mem_words c inside)

theorem isName_pascal (snake : IsSnake name.toList) : IsName (pascal name) :=
  isName_of_plain fun c inside => .inr (isPlain_of_mem_pascal snake.isPiece_of_mem_words c inside)

end

end Text

end Handoff
