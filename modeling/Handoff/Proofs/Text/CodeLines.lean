import Handoff.Proofs.Text.Margins

/-!
The lines of a code.

`codeLines` cuts a code at its line feeds, and the lines make up the code again
(`intercalate_codeLines`).  A code that ends with a line feed `HasLines` whatever comes behind it,
so the lines of codes one after another are told from those of each (`HasLines.append`,
`HasLines.join`).
-/

namespace Handoff.Text

variable {a b s : String} {lines more : List String}

/-- The lines of a code, each without its line feed. -/
def codeLines (s : String) : List String :=
  (splitChars '\n' s.toList).map String.ofList

theorem codeLines_below (a b : String) : codeLines (a ++ "\n" ++ b) = codeLines a ++ codeLines b := by
  have chars : (a ++ "\n" ++ b).toList = a.toList ++ '\n' :: b.toList := by simp
  rw [codeLines, chars, splitChars_append, List.map_append]
  rfl

/-- Lines are cut from the characters of a code. -/
theorem codeLines_ofList (code : List Char) :
    codeLines (String.ofList code) = (splitChars '\n' code).map String.ofList := by
  rw [codeLines, String.toList_ofList]

theorem codeLines_of_oneLine (line : OneLine s) : codeLines s = [s] := by
  rw [codeLines, splitChars_of_not_mem line, List.map_singleton, String.ofList_toList]

/-- Cut at its line feeds a code is found again between them. -/
theorem intercalate_splitChars (separator : Char) (cs : List Char) :
    [separator].intercalate (splitChars separator cs) = cs := by
  induction cs with
  | nil => rfl
  | cons c cs ih =>
      obtain ⟨piece, pieces, split⟩ := List.exists_cons_of_ne_nil (splitChars_ne_nil separator cs)
      rw [splitChars, split]
      rw [split] at ih
      by_cases cut : c = separator
      · rw [if_pos cut, List.intercalate_cons_cons, ih, cut]
        rfl
      · rw [if_neg cut]
        cases pieces with
        | nil =>
            rw [List.intercalate_singleton] at ih ⊢
            rw [ih]
        | cons next pieces =>
            rw [List.intercalate_cons_cons] at ih ⊢
            rw [List.cons_append, List.cons_append, ih]

theorem intercalate_codeLines (s : String) : "\n".intercalate (codeLines s) = s := by
  have feed : "\n".toList = ['\n'] := rfl
  have kept : ((splitChars '\n' s.toList).map String.ofList).map String.toList =
      splitChars '\n' s.toList := by
    simp [List.map_map, Function.comp_def]
  rw [← String.toList_inj, String.toList_intercalate, feed, codeLines, kept, intercalate_splitChars]

/-- The lines of a code that are ended by a line feed. -/
def endedLines (s : String) : List String :=
  (splitChars '\n' s.toList).dropLast.map String.ofList

theorem mem_endedLines {line : String} :
    line ∈ endedLines s ↔ line.toList ∈ (splitChars '\n' s.toList).dropLast := by
  rw [endedLines, List.mem_map]
  constructor
  · rintro ⟨cs, member, rfl⟩
    rwa [String.toList_ofList]
  · exact fun member => ⟨line.toList, member, String.ofList_toList⟩

theorem forall_mem_endedLines {P : List Char → Prop} :
    (∀ line ∈ endedLines s, P line.toList) ↔
      ∀ line ∈ (splitChars '\n' s.toList).dropLast, P line := by
  simp only [endedLines, List.forall_mem_map, String.toList_ofList]

theorem flatMap_endedLines {α : Type} (read : List Char → List α) :
    (endedLines s).flatMap (fun line => read line.toList) =
      (splitChars '\n' s.toList).dropLast.flatMap read := by
  simp only [endedLines, List.flatMap_map, String.toList_ofList]

/-- A code has these lines, all of them ended, whatever stands behind it. -/
def HasLines (s : String) (lines : List String) : Prop :=
  ∀ rest, codeLines (s ++ rest) = lines ++ codeLines rest

namespace HasLines

theorem empty : HasLines "" [] := by
  intro rest
  rw [String.empty_append, List.nil_append]

theorem ended (s : String) : HasLines (s ++ "\n") (codeLines s) :=
  codeLines_below s

theorem line (line : OneLine s) : HasLines (s ++ "\n") [s] :=
  codeLines_of_oneLine line ▸ ended s

/-- The lines of a code that ends with a line feed, which has an empty line behind it. -/
theorem of_codeLines (own : Text.codeLines s = lines ++ [""]) : HasLines s lines := by
  intro rest
  obtain ⟨front, last, above⟩ := exists_splitChars_concat '\n' s.toList
  obtain ⟨first, back, below⟩ := List.exists_cons_of_ne_nil (splitChars_ne_nil '\n' rest.toList)
  have ends : front.map String.ofList = lines ∧ String.ofList last = "" := by
    rw [Text.codeLines, above, List.map_append, List.map_singleton] at own
    obtain ⟨same, final⟩ := List.append_inj' own rfl
    exact ⟨same, (List.cons.inj final).1⟩
  have empty : last = [] := by
    rw [← String.toList_ofList (l := last), ends.2]
    rfl
  rw [Text.codeLines, String.toList_append, splitChars_join above below, empty, List.nil_append,
    List.map_append, ends.1, Text.codeLines, below]

theorem endedLines (ends : s.toList.getLast? = some '\n') : HasLines s (endedLines s) := by
  obtain ⟨cs, own⟩ := List.getLast?_eq_some_iff.mp ends
  refine of_codeLines ?_
  rw [Text.codeLines, Text.endedLines, own, splitChars_append, splitChars, List.dropLast_concat,
    List.map_append]
  rfl

theorem append (first : HasLines a lines) (second : HasLines b more) :
    HasLines (a ++ b) (lines ++ more) := by
  intro rest
  rw [String.append_assoc, first, second, List.append_assoc]

theorem join {α : Type} {write : α → String} {read : α → List String} {items : List α}
    (each : ∀ a ∈ items, HasLines (write a) (read a)) :
    HasLines (String.join (items.map write)) (items.flatMap read) := by
  induction items with
  | nil => exact empty
  | cons a rest ih =>
      obtain ⟨own, others⟩ := List.forall_mem_cons.mp each
      rw [List.map_cons, String.join_cons, List.flatMap_cons]
      exact own.append (ih others)

/-- The lines of the whole code end with an empty one. -/
theorem codeLines (has : HasLines s lines) : Text.codeLines s = lines ++ [""] := by
  have whole := has ""
  rwa [String.append_empty] at whole

end HasLines

end Handoff.Text
