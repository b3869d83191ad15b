import Handoff.Proofs.Text.Wording

/-!
Codes moved to the right.

A code is moved by putting blanks behind its line feeds (`Text.substitute`) or before its lines
(`Text.indent`).  Both leave its words alone, since no literal goes past a line and a comment is
the end of one.  Indenting takes a carriage return off the end of a line, so there it matters that
no comment ends with one (`Spells.indent`).
-/

namespace Handoff.Text.Lexis

variable {l : Lexis} {s : String} {words more : List Word}

theorem oneLine_literal (text : String) : OneLine (l.literal text) := by
  rw [OneLine, mem_literal_of_endsLine (by decide)]
  exact fun both => absurd both.2 (by decide)

theorem substitute_append (c : Char) (replacement : List Char) (a b : String) :
    substitute c replacement (a ++ b) =
      substitute c replacement a ++ substitute c replacement b := by
  rw [← String.toList_inj]
  simp [substitute]

namespace Spells

/-- Blanks behind the line feeds of a code do not change its words. -/
theorem substitute (spells : l.Spells s words) {margin : List Char}
    (blank : ∀ c ∈ margin, isCodeChar c = true) :
    l.Spells (Text.substitute '\n' ('\n' :: margin) s) words := by
  have code : Within isCodeChar (String.ofList ('\n' :: margin)) :=
    within_ofList.mpr (List.forall_mem_cons.mpr ⟨rfl, blank⟩)
  induction spells with
  | nil => exact .nil
  | @char c own =>
      refine .code (within_substitute code ?_)
      intro d member
      rw [String.toList_singleton, List.mem_singleton] at member
      rw [member]
      exact (congrArg (_ || ·) own).trans (Bool.or_true _)
  | address dense =>
      rw [substitute_of_oneLine (oneLine_literal _)]
      exact .address dense
  | literal text =>
      rw [substitute_of_oneLine (oneLine_literal _)]
      exact .literal text
  | @comment text line =>
      have front : OneLine ("//" ++ text) := oneLine_append.mpr ⟨by decide, line⟩
      have feed : Text.substitute '\n' ('\n' :: margin) "\n" = "\n" ++ String.ofList margin := by
        rw [← String.toList_inj]
        simp [Text.substitute]
      rw [Lexis.comment, substitute_append, substitute_of_oneLine front, feed,
        ← String.append_assoc]
      exact .before (.comment line) (within_ofList.mpr blank)
  | append _ _ ihFront ihBack =>
      rw [substitute_append]
      exact .append ihFront ihBack

/-- A code that has words is not blank. -/
theorem exists_not_isBlank (spells : l.Spells s words) (present : words ≠ []) :
    ∃ c ∈ s.toList, isBlank c = false := by
  induction spells with
  | nil | char _ | address _ => exact absurd rfl present
  | literal text =>
      rw [toList_literal]
      exact ⟨_, List.mem_cons_self, l.solid⟩
  | comment line =>
      rw [toList_comment]
      exact ⟨'/', List.mem_cons_self, by decide⟩
  | @append a b first later _ _ ihFront ihBack =>
      rw [String.toList_append]
      by_cases front : first = []
      · have back : later ≠ [] := fun none => present (by rw [front, none]; rfl)
        obtain ⟨c, member, solid⟩ := ihBack back
        exact ⟨c, List.mem_append_right _ member, solid⟩
      · obtain ⟨c, member, solid⟩ := ihFront front
        exact ⟨c, List.mem_append_left _ member, solid⟩

end Spells

/-! ## Lines -/

/-- A line without its end, and without a carriage return that would be part of the end. -/
structure Single (line : List Char) : Prop where
  feed : '\n' ∉ line
  back : line.getLast? ≠ some '\r'

theorem Single.append {first second : List Char} (front : Single first) (back : Single second) :
    Single (first ++ second) := by
  refine ⟨fun feed => (List.mem_append.mp feed).elim front.feed back.feed, ?_⟩
  rw [List.getLast?_append]
  cases last : second.getLast? with
  | none => exact front.back
  | some c => exact fun same => back.back (last.trans same)

/-- Lines that have words when they are ended, and a last one that is not. -/
inductive SpellsLines (l : Lexis) : List (List Char) → List Word → Prop
  | last {line : List Char} {own : List Word} (single : Single line)
      (spells : l.Spells (String.ofList line) own) : SpellsLines l [line] own
  | cons {line : List Char} {lines : List (List Char)} {own later : List Word}
      (single : Single line) (spells : l.Spells (String.ofList (line ++ ['\n'])) own)
      (others : SpellsLines l lines later) : SpellsLines l (line :: lines) (own ++ later)

namespace SpellsLines

variable {line : List Char} {lines rest : List (List Char)}

theorem ne_nil (spells : l.SpellsLines lines words) : lines ≠ [] := by
  cases spells <;> exact List.cons_ne_nil _ _

/-- Of codes one after another the last line and the first become one. -/
theorem append (first : l.SpellsLines lines words) (second : l.SpellsLines rest more) :
    ∃ all, ['\n'].intercalate all = ['\n'].intercalate lines ++ ['\n'].intercalate rest ∧
      l.SpellsLines all (words ++ more) := by
  induction first with
  | @last line own single spells =>
      cases second with
      | @last next _ singleNext spellsNext =>
          refine ⟨[line ++ next], by simp, .last (single.append singleNext) ?_⟩
          rw [String.ofList_append]
          exact .append spells spellsNext
      | @cons next later ownNext _ singleNext spellsNext others =>
          refine ⟨(line ++ next) :: later, ?_, ?_⟩
          · obtain ⟨head, tail, rfl⟩ := List.exists_cons_of_ne_nil others.ne_nil
            simp [List.intercalate_cons_cons]
          · rw [← List.append_assoc]
            refine .cons (single.append singleNext) ?_ others
            rw [List.append_assoc, String.ofList_append]
            exact .append spells spellsNext
  | @cons line lines own later single spells others ih =>
      obtain ⟨all, joined, spellsAll⟩ := ih
      refine ⟨line :: all, ?_, ?_⟩
      · obtain ⟨head, tail, rfl⟩ := List.exists_cons_of_ne_nil others.ne_nil
        obtain ⟨first, more, rfl⟩ := List.exists_cons_of_ne_nil spellsAll.ne_nil
        rw [List.intercalate_cons_cons, List.intercalate_cons_cons, joined]
        simp
      · rw [List.append_assoc]
        exact .cons single spells spellsAll

end SpellsLines

/-- A code whose comments have no carriage return is made of lines. -/
theorem Spells.lines (spells : l.Spells s words) (comments : UnbrokenComments words) :
    ∃ lines, s.toList = ['\n'].intercalate lines ∧ l.SpellsLines lines words := by
  have single : ∀ text, Single (l.literal text).toList := by
    intro text
    refine ⟨oneLine_literal text, ?_⟩
    rw [toList_literal, ← List.cons_append, List.getLast?_append]
    exact fun same => l.breaks.2 (Option.some.inj same).symm
  induction spells with
  | nil => exact ⟨[[]], rfl, .last ⟨List.not_mem_nil, by decide⟩ .nil⟩
  | @char c code =>
      rw [String.toList_singleton]
      by_cases feed : c = '\n'
      · have ended : l.Spells (String.ofList ([] ++ ['\n'])) [] := .code (by decide)
        have empty : Single [] := ⟨List.not_mem_nil, by decide⟩
        have lines := SpellsLines.cons empty ended (.last empty .nil)
        exact ⟨[[], []], by rw [feed]; rfl, lines⟩
      · have back : c ≠ '\r' := by
          rintro rfl
          exact absurd code (by decide)
        refine ⟨[[c]], by simp, .last ⟨by simpa using Ne.symm feed, by simpa using back⟩ ?_⟩
        exact .code (within_ofList.mpr (List.forall_mem_singleton.mpr code))
  | @address text dense =>
      refine ⟨[(l.literal text).toList], by simp, .last (single text) ?_⟩
      rw [String.ofList_toList]
      exact .address dense
  | literal text =>
      refine ⟨[(l.literal text).toList], by simp, .last (single text) ?_⟩
      rw [String.ofList_toList]
      exact .literal text
  | @comment text line =>
      have clean : '\r' ∉ text.toList := comments text List.mem_cons_self
      have ended : l.Spells (String.ofList (("//" ++ text).toList ++ ['\n'])) [.comment text] := by
        rw [String.ofList_append, String.ofList_toList]
        exact .comment line
      refine ⟨[("//" ++ text).toList, []], ?_, ?_⟩
      · rw [Lexis.comment, String.toList_append]
        simp
      · have empty : Single [] := ⟨List.not_mem_nil, by decide⟩
        refine List.append_nil [Word.comment text] ▸
          .cons ⟨?_, fun last => ?_⟩ ended (.last empty .nil)
        · exact oneLine_append.mpr ⟨by decide, line⟩
        · have member := List.mem_of_getLast? last
          rw [String.toList_append] at member
          exact (List.mem_append.mp member).elim (by decide) clean
  | @append a b first later _ _ ihFront ihBack =>
      obtain ⟨commentsFront, commentsBack⟩ := unbrokenComments_append.mp comments
      obtain ⟨front, charsFront, spellsFront⟩ := ihFront commentsFront
      obtain ⟨back, charsBack, spellsBack⟩ := ihBack commentsBack
      obtain ⟨all, joined, spellsAll⟩ := spellsFront.append spellsBack
      exact ⟨all, by rw [String.toList_append, charsFront, charsBack, joined], spellsAll⟩

/-! ## Indentation -/

theorem lineChars_append {line : List Char} (feed : '\n' ∉ line) (rest : List Char) :
    lineChars (line ++ '\n' :: rest) = dropReturn line :: lineChars rest := by
  obtain ⟨piece, pieces, split⟩ := List.exists_cons_of_ne_nil (splitChars_ne_nil '\n' rest)
  rw [lineChars, splitChars_append, splitChars_of_not_mem feed, lineChars, split]
  simp only [List.singleton_append, List.dropLast_cons_cons, List.map_cons,
    List.getLast?_cons_cons]
  split <;> rfl

theorem lineChars_of_not_mem {line : List Char} (feed : '\n' ∉ line) :
    lineChars line = if line = [] then [] else [line] := by
  rw [lineChars, splitChars_of_not_mem feed]
  cases line <;> rfl

theorem dropReturn_of_single {line : List Char} (single : Single line) :
    dropReturn line = line := by
  unfold dropReturn
  split
  · rename_i rest ends
    have last : line.getLast? = some '\r' := by
      rw [← List.head?_reverse, ends]
      rfl
    exact absurd last single.back
  · rfl

/-- An indented line has the words of the line. -/
theorem Spells.indentLine {line : List Char}
    (spells : l.Spells (String.ofList (line ++ ['\n'])) words) (width : Nat) :
    l.Spells (String.ofList (Text.indentLine width line ++ ['\n'])) words := by
  unfold Text.indentLine
  split
  · rename_i blank
    have none : words = [] := by
      refine Decidable.byContradiction fun present => ?_
      obtain ⟨c, member, solid⟩ := spells.exists_not_isBlank present
      rw [String.toList_ofList, List.mem_append] at member
      rcases member with inside | feed
      · exact Bool.false_ne_true (solid.symm.trans (List.all_eq_true.mp blank c inside))
      · rw [List.mem_singleton.mp feed] at solid
        exact absurd solid (by decide)
    rw [none]
    exact .code (by decide)
  · rw [List.append_assoc, String.ofList_append]
    exact .after (within_spaces width) spells

/-- Indented lines have the words of the lines. -/
theorem SpellsLines.indent {lines : List (List Char)} (spells : l.SpellsLines lines words)
    (width : Nat) :
    l.Spells (String.ofList ((lineChars (['\n'].intercalate lines)).flatMap fun line =>
      Text.indentLine width line ++ ['\n'])) words := by
  induction spells with
  | @last line own single spells =>
      rw [List.intercalate_singleton, lineChars_of_not_mem single.feed]
      split
      · rename_i empty
        rw [empty] at spells
        exact spells
      · have ended : l.Spells (String.ofList (line ++ ['\n'])) own := by
          rw [String.ofList_append]
          exact spells.before (by decide)
        rw [List.flatMap_singleton]
        exact ended.indentLine width
  | @cons line lines own later single spells others ih =>
      obtain ⟨next, more, rfl⟩ := List.exists_cons_of_ne_nil others.ne_nil
      rw [List.intercalate_cons_cons, List.append_assoc, List.singleton_append,
        lineChars_append single.feed, dropReturn_of_single single, List.flatMap_cons,
        String.ofList_append]
      exact .append (spells.indentLine width) ih

theorem flatMap_ended {lines : List (List Char)} (present : lines ≠ []) :
    lines.flatMap (· ++ ['\n']) = ['\n'].intercalate lines ++ ['\n'] := by
  induction lines with
  | nil => exact absurd rfl present
  | cons line rest ih =>
      cases rest with
      | nil => rw [List.flatMap_singleton, List.intercalate_singleton]
      | cons next rest =>
          rw [List.flatMap_cons, ih (List.cons_ne_nil _ _), List.intercalate_cons_cons]
          simp only [List.append_assoc]

/-- An indented code has the words of the code. -/
theorem Spells.indent (spells : l.Spells s words) (comments : UnbrokenComments words)
    (width : Nat) :
    l.Spells (Text.indent width s ++ "\n") words := by
  obtain ⟨lines, chars, spellsLines⟩ := spells.lines comments
  have indented := spellsLines.indent width
  rw [← chars] at indented
  unfold Text.indent
  by_cases none : lineChars s.toList = []
  · rw [none] at indented ⊢
    exact indented.before (by decide)
  · have kept : (lineChars s.toList).map (Text.indentLine width) ≠ [] :=
      fun empty => none (List.map_eq_nil_iff.mp empty)
    have ended := flatMap_ended kept
    rw [List.flatMap_map] at ended
    rw [ended, String.ofList_append] at indented
    exact indented

end Handoff.Text.Lexis
