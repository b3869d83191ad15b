import Handoff.Proofs.Text.Indentation

/-!
Codes with a margin in front of their lines.

`shifted` puts the same margin in front of every line of a text, whatever the line is.  Indenting
does so for texts all of whose lines end with something visible (`FirmLines`): it leaves no margin
to a blank line, takes a carriage return off the end of a line, and loses the last line if that is
empty, and none of this comes up in such texts (`indent_eq_shifted`).
-/

namespace Handoff.Text

variable {a b s : String} {separator : Char} {cs ds first last : List Char}
  {front back : List (List Char)} {width : Nat}

/-! ## Pieces -/

theorem exists_splitChars_concat (separator : Char) (cs : List Char) :
    ∃ front last, splitChars separator cs = front ++ [last] :=
  (List.eq_nil_or_concat' (splitChars separator cs)).resolve_left (splitChars_ne_nil separator cs)

/-- Of two texts one after the other the last piece and the first become one. -/
theorem splitChars_join (above : splitChars separator cs = front ++ [last])
    (below : splitChars separator ds = first :: back) :
    splitChars separator (cs ++ ds) = front ++ (last ++ first) :: back := by
  induction cs generalizing front last with
  | nil =>
      have same : [] ++ [[]] = front ++ [last] := above
      obtain ⟨rfl, rfl⟩ := List.append_singleton_inj.mp same
      exact below
  | cons c cs ih =>
      obtain ⟨start, piece, own⟩ := exists_splitChars_concat separator cs
      rw [splitChars, own] at above
      rw [List.cons_append, splitChars, ih own]
      split at above
      · rename_i cut
        rw [← List.cons_append] at above
        obtain ⟨rfl, rfl⟩ := List.append_singleton_inj.mp above
        rw [if_pos cut]
        rfl
      · rename_i other
        rw [if_neg other]
        cases start with
        | nil =>
            have same : [] ++ [c :: piece] = front ++ [last] := above
            obtain ⟨rfl, rfl⟩ := List.append_singleton_inj.mp same
            rfl
        | cons line start =>
            have same : (c :: line) :: start ++ [piece] = front ++ [last] := above
            obtain ⟨rfl, rfl⟩ := List.append_singleton_inj.mp same
            rfl

/-- A text without the separator becomes part of the first piece behind it. -/
theorem splitChars_append_of_not_mem (none : separator ∉ cs)
    (below : splitChars separator ds = first :: back) :
    splitChars separator (cs ++ ds) = (cs ++ first) :: back := by
  have above : splitChars separator cs = [] ++ [cs] := splitChars_of_not_mem none
  exact splitChars_join above below

/-! ## Shifted texts -/

/-- A text with a margin in front of every line of it. -/
def shifted (width : Nat) (s : String) : String :=
  String.ofList
    (['\n'].intercalate ((splitChars '\n' s.toList).map (List.replicate width ' ' ++ ·)))

/-- A text with a margin behind every line feed in it. -/
def pushed (width : Nat) (s : String) : String :=
  substitute '\n' ('\n' :: List.replicate width ' ') s

theorem pushed_append (width : Nat) (a b : String) :
    pushed width (a ++ b) = pushed width a ++ pushed width b :=
  Lexis.substitute_append _ _ a b

theorem pushed_of_oneLine (line : OneLine s) : pushed width s = s :=
  substitute_of_oneLine line

theorem pushed_feed (width : Nat) : pushed width "\n" = "\n" ++ spaces width := by
  rw [← String.toList_inj]
  simp [pushed, substitute, spaces]

theorem oneLine_spaces (width : Nat) : OneLine (spaces width) := by
  rw [spaces, oneLine_ofList]
  simp

theorem spaces_add (width other : Nat) : spaces (width + other) = spaces width ++ spaces other := by
  rw [spaces, List.replicate_add, String.ofList_append]
  rfl

/-- The margin is in front of the text and behind every line feed. -/
theorem shifted_eq_pushed (width : Nat) (s : String) :
    shifted width s = spaces width ++ pushed width s := by
  have chars : ∀ cs : List Char,
      ['\n'].intercalate ((splitChars '\n' cs).map (List.replicate width ' ' ++ ·)) =
        List.replicate width ' ' ++
          cs.flatMap fun d => if d = '\n' then '\n' :: List.replicate width ' ' else [d] := by
    intro cs
    induction cs with
    | nil => simp [splitChars]
    | cons c cs ih =>
        obtain ⟨piece, pieces, split⟩ := List.exists_cons_of_ne_nil (splitChars_ne_nil '\n' cs)
        rw [splitChars, List.flatMap_cons]
        rw [split, List.map_cons] at ih
        split
        · rw [split, List.map_cons, List.map_cons, List.intercalate_cons_cons, ih]
          simp
        · rw [split, List.map_cons]
          cases pieces with
          | nil =>
              rw [List.map_nil, List.intercalate_singleton] at ih ⊢
              rw [List.append_cancel_left ih]
              simp
          | cons next pieces =>
              rw [List.map_cons, List.intercalate_cons_cons, List.append_assoc,
                List.append_assoc] at ih
              rw [List.map_cons, List.intercalate_cons_cons, List.append_assoc, List.append_assoc,
                List.cons_append, List.append_cancel_left ih]
              simp
  rw [shifted, chars, String.ofList_append, spaces, pushed, substitute]

/-- One margin and then another is both. -/
theorem pushed_pushed (width other : Nat) (s : String) :
    pushed width (pushed other s) = pushed (other + width) s := by
  have inner : ∀ cs : List Char, '\n' ∉ cs →
      cs.flatMap (fun d => if d = '\n' then '\n' :: List.replicate width ' ' else [d]) = cs := by
    intro cs none
    induction cs with
    | nil => rfl
    | cons c cs ih =>
        obtain ⟨own, others⟩ := not_or.mp (mt List.mem_cons.mpr none)
        rw [List.flatMap_cons, if_neg (Ne.symm own), ih others]
        rfl
  rw [← String.toList_inj]
  simp only [pushed, substitute, String.toList_ofList, List.flatMap_assoc]
  refine List.flatMap_congr fun c _ => ?_
  split
  · have margin : '\n' ∉ List.replicate other ' ' := by simp
    rw [List.flatMap_cons, inner _ margin, if_pos rfl, Nat.add_comm, List.replicate_add]
    rfl
  · rename_i other
    simp [other]

/-- Behind the first line every line has the margin. -/
theorem splitChars_pushed (width : Nat) (s : String) : ∃ first back,
    splitChars '\n' s.toList = first :: back ∧ splitChars '\n' (pushed width s).toList =
      first :: back.map (List.replicate width ' ' ++ ·) := by
  have margin : '\n' ∉ List.replicate width ' ' := by simp
  rw [pushed, substitute, String.toList_ofList]
  induction s.toList with
  | nil => exact ⟨[], [], rfl, rfl⟩
  | cons c cs ih =>
      obtain ⟨first, back, own, moved⟩ := ih
      rw [List.flatMap_cons]
      by_cases feed : c = '\n'
      · refine ⟨[], first :: back, by rw [splitChars, if_pos feed, own], ?_⟩
        rw [if_pos feed, List.cons_append, splitChars, if_pos rfl,
          splitChars_append_of_not_mem margin moved]
        rfl
      · refine ⟨c :: first, back, by rw [splitChars, if_neg feed, own], ?_⟩
        rw [if_neg feed, List.singleton_append, splitChars, if_neg feed, moved]

/-- The lines of a shifted text are those of the text behind the margin. -/
theorem splitChars_shifted (width : Nat) (s : String) : splitChars '\n' (shifted width s).toList =
    (splitChars '\n' s.toList).map (List.replicate width ' ' ++ ·) := by
  obtain ⟨first, back, own, moved⟩ := splitChars_pushed width s
  rw [shifted_eq_pushed, String.toList_append,
    splitChars_append_of_not_mem (oneLine_spaces width) moved, own, spaces, String.toList_ofList]
  rfl

/-! ## Firm lines -/

/-- A line that ends with a character one can see. -/
def Firm (line : List Char) : Prop := ∃ c ∈ line.getLast?, isBlank c = false

/-- A text all of whose lines are firm. -/
def FirmLines (s : String) : Prop := ∀ line ∈ splitChars '\n' s.toList, Firm line

instance (line : List Char) : Decidable (Firm line) :=
  match last : line.getLast? with
  | none => .isFalse fun ⟨_, found, _⟩ => by cases last.symm.trans found
  | some c => decidable_of_iff (isBlank c = false) <| by
      rw [Firm, last]
      simp

theorem firm_append (firm : Firm ds) : Firm (cs ++ ds) := by
  obtain ⟨c, last, solid⟩ := firm
  refine ⟨c, ?_, solid⟩
  rw [List.getLast?_append, Option.mem_def.mp last]
  rfl

theorem isBlank_of_isWordChar {c : Char} (word : isWordChar c = true) : isBlank c = false := by
  have ascii : c.toNat < 128 := by
    simp only [isWordChar, Bool.or_eq_true, beq_iff_eq] at word
    rcases word with (plain | rfl) | rfl
    · exact ascii_of_isPlain plain
    · decide
    · decide
  exact forall_ascii (P := fun c => isWordChar c = true → isBlank c = false) (by decide) ascii word

/-- A word ends with something one can see. -/
theorem firm_of_word (word : Within isWordChar s) (filled : s ≠ "") : Firm s.toList := by
  have some : s.toList ≠ [] := fun none => filled (String.toList_eq_nil_iff.mp none)
  exact ⟨_, List.getLast?_eq_some_getLast some,
    isBlank_of_isWordChar (word _ (List.getLast_mem some))⟩

namespace FirmLines

theorem of_oneLine (line : OneLine s) (firm : Firm s.toList) : FirmLines s := by
  rw [FirmLines, splitChars_of_not_mem line]
  exact List.forall_mem_singleton.mpr firm

/-- In front of a text there may be anything on its first line. -/
theorem after (line : OneLine a) (firm : FirmLines b) : FirmLines (a ++ b) := by
  obtain ⟨first, back, below⟩ := List.exists_cons_of_ne_nil (splitChars_ne_nil '\n' b.toList)
  rw [FirmLines, below] at firm
  obtain ⟨own, others⟩ := List.forall_mem_cons.mp firm
  rw [FirmLines, String.toList_append, splitChars_append_of_not_mem line below]
  exact List.forall_mem_cons.mpr ⟨firm_append own, others⟩

/-- Behind a text there may be anything firm on its last line. -/
theorem before (firm : FirmLines a) (line : OneLine b) (last : Firm b.toList) :
    FirmLines (a ++ b) := by
  obtain ⟨front, ending, above⟩ := exists_splitChars_concat '\n' a.toList
  rw [FirmLines, above] at firm
  rw [FirmLines, String.toList_append, splitChars_join above (splitChars_of_not_mem line)]
  obtain ⟨lines, -⟩ := List.forall_mem_append.mp firm
  exact List.forall_mem_append.mpr ⟨lines, List.forall_mem_singleton.mpr (firm_append last)⟩

theorem nextLine (first : FirmLines a) (later : FirmLines b) : FirmLines (a ++ "\n" ++ b) := by
  have feed : (a ++ "\n" ++ b).toList = a.toList ++ '\n' :: b.toList := by simp
  rw [FirmLines, feed, splitChars_append]
  exact List.forall_mem_append.mpr ⟨first, later⟩

theorem pushed (firm : FirmLines s) (width : Nat) : FirmLines (pushed width s) := by
  obtain ⟨first, back, own, moved⟩ := splitChars_pushed width s
  rw [FirmLines, own] at firm
  obtain ⟨start, others⟩ := List.forall_mem_cons.mp firm
  rw [FirmLines, moved]
  refine List.forall_mem_cons.mpr ⟨start, List.forall_mem_map.mpr fun line member => ?_⟩
  exact firm_append (others line member)

end FirmLines

theorem dropReturn_of_firm {line : List Char} (firm : Firm line) : dropReturn line = line := by
  obtain ⟨c, last, solid⟩ := firm
  unfold dropReturn
  split
  · rename_i rest ends
    rw [List.getLast?_eq_head?_reverse, ends] at last
    cases last
    exact absurd solid (by decide)
  · rfl

/-- The lines of a text with firm lines are all of its pieces. -/
theorem lineChars_of_firmLines (firm : FirmLines s) :
    lineChars s.toList = splitChars '\n' s.toList := by
  have kept : ∀ line ∈ (splitChars '\n' s.toList).dropLast, dropReturn line = line :=
    fun line member => dropReturn_of_firm (firm line (List.dropLast_subset _ member))
  obtain ⟨last, final⟩ : ∃ last, (splitChars '\n' s.toList).getLast? = some last :=
    Option.isSome_iff_exists.mp (by simp [splitChars_ne_nil])
  have ending := firm last (List.mem_of_getLast? final)
  have whole := List.dropLast_append_getLast? last final
  unfold lineChars
  dsimp only
  rw [List.map_congr_left kept, List.map_id', final]
  cases last with
  | nil =>
      obtain ⟨c, none, -⟩ := ending
      cases none
  | cons c rest => exact whole

/-- Indenting puts the margin before every line if all of them are firm. -/
theorem indent_eq_shifted (firm : FirmLines s) (width : Nat) :
    indent width s = shifted width s := by
  have each : ∀ line ∈ splitChars '\n' s.toList,
      indentLine width line = List.replicate width ' ' ++ line := by
    intro line member
    obtain ⟨c, last, solid⟩ := firm line member
    have visible : ¬ line.all isBlank = true := by
      intro blank
      have all := List.all_eq_true.mp blank c (List.mem_of_getLast? last)
      exact Bool.false_ne_true (solid.symm.trans all)
    rw [indentLine, if_neg visible]
  rw [indent, shifted, lineChars_of_firmLines firm, List.map_congr_left each]

end Handoff.Text
