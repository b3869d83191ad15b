import Handoff.Proofs.Dart.Leaves
import Handoff.Proofs.Text.Margins

/-!
The lines of printed expressions.

An expression `Hangs` from the place where it starts: the lines below the first have at least the
margin it is printed at.  None of its lines, and not the first either, starts with the word for a
constant (`Calm`), so none is taken for the use of a class.  Both are kept where a text goes on with
a sign that is not in that word, and where another line begins (`Hangs.joined`, `Hangs.nextLine`),
and expressions are printed in no other way (`hangs_render`).
-/

namespace Handoff.Dart

open Handoff.Dart.Expr (raw call list commented render)
open Text (OneLine oneLine_append spaces splitChars)

/-! ## Calm lines -/

/-- A line that does not start with the word for a constant, whatever its margin. -/
def Calm (line : List Char) : Prop := ¬ keyword.toList <+: unindented line

variable {c : Char} {line rest : List Char} {a b text name opening closing : String} {n m : Nat}
  {parts : List String}

instance (line : List Char) : Decidable (Calm line) :=
  inferInstanceAs (Decidable (¬ keyword.toList <+: unindented line))

theorem calm_of_opens (opens : Opens text) : Calm text.toList := by
  obtain ⟨⟨-, begins⟩, other⟩ := opens
  have whole : unindented text.toList = text.toList := by
    cases chars : text.toList with
    | nil => rfl
    | cons d others =>
        have solid := (begins d (by rw [chars]; rfl)).1
        exact List.dropWhile_cons_of_neg (by simpa using solid)
  rwa [Calm, whole]

theorem calm_margin (calm : Calm line) (width : Nat) : Calm (List.replicate width ' ' ++ line) := by
  have margin : unindented (List.replicate width ' ' ++ line) = unindented line := by
    refine List.dropWhile_append_of_pos fun d member => ?_
    simp [List.eq_of_mem_replicate member]
  rwa [Calm, margin]

/-- A line stays calm if it goes on with a sign that is not in the word. -/
theorem calm_append (calm : Calm line) (apart : c ∉ keyword.toList) : Calm (line ++ c :: rest) := by
  have solid : (c == ' ') = false := by
    refine beq_false_of_ne ?_
    rintro rfl
    exact apart (by decide)
  have kept : unindented (line ++ c :: rest) = unindented line ++ c :: rest := by
    rw [unindented, List.dropWhile_append, List.dropWhile_cons_of_neg (by simp [solid])]
    split
    · rename_i empty
      rw [unindented, List.isEmpty_iff.mp empty, List.nil_append]
    · rfl
  rw [Calm, kept]
  intro constant
  rcases List.prefix_or_prefix_of_prefix constant (List.prefix_append _ (c :: rest)) with
    whole | ⟨others, split⟩
  · exact calm whole
  · rw [← split, List.prefix_append_right_inj] at constant
    cases others with
    | nil =>
        rw [List.append_nil] at split
        exact calm (split ▸ List.prefix_refl _)
    | cons d others =>
        have same : d = c := (List.cons_prefix_cons.mp constant).1
        refine apart ?_
        rw [← split, ← same]
        exact List.mem_append_right _ List.mem_cons_self

theorem margin_le (less : n ≤ m) : List.replicate n ' ' <+: List.replicate m ' ' :=
  ⟨List.replicate (m - n) ' ', by rw [← List.replicate_add]; congr 1; omega⟩

/-! ## Hanging texts -/

/-- A text is calm, and below its first line it has the margin at least. -/
def Hangs (indent : Nat) (s : String) : Prop :=
  ∃ first back, splitChars '\n' s.toList = first :: back ∧ Calm first ∧
    ∀ line ∈ back, Calm line ∧ List.replicate indent ' ' <+: line

namespace Hangs

theorem of_oneLine (line : OneLine text) (calm : Calm text.toList) : Hangs n text :=
  ⟨text.toList, [], Text.splitChars_of_not_mem line, calm, List.forall_mem_nil _⟩

theorem of_opens (opens : Opens text) : Hangs n text :=
  of_oneLine opens.1.1 (calm_of_opens opens)

theorem mono (hangs : Hangs m text) (less : n ≤ m) : Hangs n text := by
  obtain ⟨first, back, lines, calm, others⟩ := hangs
  exact ⟨first, back, lines, calm, fun line member =>
    ⟨(others line member).1, (margin_le less).trans (others line member).2⟩⟩

/-- A text goes on with a sign that is not in the word for a constant. -/
theorem joined (front : Hangs n a) (back : Hangs n b) (apart : c ∉ keyword.toList)
    (inner : c ≠ '\n') : Hangs n (a ++ String.singleton c ++ b) := by
  obtain ⟨first, above, linesAbove, calm, others⟩ := front
  obtain ⟨next, below, linesBelow, -, later⟩ := back
  obtain ⟨start, last, own⟩ := Text.exists_splitChars_concat '\n' a.toList
  have behind : splitChars '\n' (c :: b.toList) = (c :: next) :: below := by
    rw [splitChars, if_neg inner, linesBelow]
  have chars : (a ++ String.singleton c ++ b).toList = a.toList ++ c :: b.toList := by simp
  rw [Hangs, chars, Text.splitChars_join own behind]
  rw [linesAbove] at own
  cases start with
  | nil =>
      obtain ⟨rfl, -⟩ := List.cons.inj own
      exact ⟨_, below, rfl, calm_append calm apart, later⟩
  | cons line start =>
      obtain ⟨rfl, rfl⟩ := List.cons.inj own
      obtain ⟨kept, ending⟩ := List.forall_mem_append.mp others
      obtain ⟨quiet, margin⟩ := ending last List.mem_cons_self
      refine ⟨first, _, rfl, calm, List.forall_mem_append.mpr ⟨kept, ?_⟩⟩
      exact List.forall_mem_cons.mpr
        ⟨⟨calm_append quiet apart, margin.trans (List.prefix_append _ _)⟩, later⟩

/-- Another line begins below a text. -/
theorem nextLine (front : Hangs n a) (back : Hangs m b) (less : n ≤ m) :
    Hangs n (a ++ "\n" ++ (spaces m ++ b)) := by
  obtain ⟨first, above, linesAbove, calm, others⟩ := front
  obtain ⟨next, below, linesBelow, quiet, later⟩ := back.mono less
  have whole := Text.splitChars_append_of_not_mem (Text.oneLine_spaces m) linesBelow
  have chars : (a ++ "\n" ++ (spaces m ++ b)).toList =
      a.toList ++ '\n' :: ((spaces m).toList ++ b.toList) := by simp
  rw [spaces, String.toList_ofList] at whole
  rw [Hangs, chars, Text.splitChars_append, linesAbove, spaces, String.toList_ofList, whole]
  have own := (margin_le less).trans (List.prefix_append _ next)
  exact ⟨first, _, rfl, calm, List.forall_mem_append.mpr ⟨others, List.forall_mem_cons.mpr
    ⟨⟨calm_margin quiet m, own⟩, later⟩⟩⟩

theorem margin (hangs : Hangs n text) (width : Nat) : Hangs n (spaces width ++ text) := by
  obtain ⟨first, back, lines, calm, others⟩ := hangs
  have whole := Text.splitChars_append_of_not_mem (Text.oneLine_spaces width) lines
  rw [spaces, String.toList_ofList] at whole
  rw [Hangs, spaces, String.toList_append, String.toList_ofList, whole]
  exact ⟨_, _, rfl, calm_margin calm width, others⟩

/-- Behind a sign there may be a space. -/
theorem spaced (hangs : Hangs n text) : Hangs n (" " ++ text) :=
  hangs.margin 1

theorem empty : Hangs n "" :=
  of_oneLine List.not_mem_nil (by decide)

/-- A sign may stand at the end. -/
theorem ended (hangs : Hangs n text) (apart : c ∉ keyword.toList) (inner : c ≠ '\n') :
    Hangs n (text ++ String.singleton c) := by
  have whole := hangs.joined empty apart inner
  rwa [String.append_empty] at whole

theorem intercalate (hangs : ∀ part ∈ parts, Hangs n part) : Hangs n (", ".intercalate parts) := by
  induction parts with
  | nil => exact empty
  | cons part rest ih =>
      obtain ⟨own, others⟩ := List.forall_mem_cons.mp hangs
      cases rest with
      | nil =>
          rw [String.intercalate_singleton]
          exact own
      | cons next rest =>
          have later := own.joined (ih others).spaced (by decide : ',' ∉ keyword.toList) (by decide)
          have comma : ", " = String.singleton ',' ++ " " := rfl
          rw [String.intercalate_cons_cons, comma]
          simp only [String.append_assoc] at later ⊢
          exact later

/-- The parts of a block are on lines with a larger margin. -/
theorem block (front : Hangs n a) (hangs : ∀ part ∈ parts, Hangs m part) (less : n ≤ m)
    (back : Hangs n closing) :
    Hangs n (a ++ "\n" ++ (Dart.block m parts ++ (spaces n ++ closing))) := by
  induction parts generalizing a with
  | nil =>
      rw [Dart.block, List.map_nil, String.join_nil, String.empty_append]
      exact front.nextLine back (Nat.le_refl n)
  | cons part rest ih =>
      obtain ⟨own, others⟩ := List.forall_mem_cons.mp hangs
      have line := (front.nextLine own less).ended (by decide : ',' ∉ keyword.toList) (by decide)
      have whole := ih line others
      have comma : ",\n" = String.singleton ',' ++ "\n" := rfl
      rw [block_cons, comma]
      simp only [String.append_assoc] at whole ⊢
      exact whole

/-- Parts that hang are laid out to a text that does. -/
theorem of_laidOut {d : Char} {parts : Nat → List String} (front : Hangs n a)
    (first : c ∉ keyword.toList ∧ c ≠ '\n') (last : d ∉ keyword.toList ∧ d ≠ '\n')
    (hangs : ∀ margin, ∀ part ∈ parts margin, Hangs margin part)
    (laid : LaidOut n (a ++ String.singleton c) (String.singleton d) parts text) :
    Hangs n text := by
  cases laid with
  | line =>
      exact (front.joined (intercalate (hangs n)) first.1 first.2).ended last.1 last.2
  | block =>
      have opened := front.ended first.1 first.2
      have closing : Hangs n (String.singleton d) := by
        have whole := (empty (n := n)).ended last.1 last.2
        rwa [String.empty_append] at whole
      have whole := opened.block (hangs (n + 2)) (by omega) closing
      simp only [String.append_assoc] at whole ⊢
      exact whole

end Hangs

/-! ## Expressions -/

section

variable {names : Bool} {e : Expr}

/-- An argument is printed with its name in front of its value. -/
theorem hangs_named (named : Opens name) (hangs : Hangs n text) :
    Hangs n (name ++ ": " ++ text) := by
  have whole := (Hangs.of_opens named).joined hangs.spaced (by decide : ':' ∉ keyword.toList)
    (by decide)
  have colon : ": " = String.singleton ':' ++ " " := rfl
  rw [colon]
  simp only [String.append_assoc] at whole ⊢
  exact whole

theorem hangs_comment (line : OneLine text) : Hangs n ("// " ++ text) := by
  have whole : OneLine ("// " ++ text) := oneLine_append.mpr ⟨by decide, line⟩
  refine .of_oneLine whole ?_
  have chars : ("// " ++ text).toList = [] ++ '/' :: ("/ ".toList ++ text.toList) := by simp
  rw [chars]
  exact calm_append (by decide) (by decide)

/-- An expression hangs from the place where it starts, and so does an argument that it is the value
of; the comment of an argument stands before its name. -/
theorem hangs_render (neat : e.Neat names) : (∀ indent, Hangs indent (e.render indent)) ∧
    ∀ name, Opens name → ∀ indent, Hangs indent (argText indent (some name, e)) := by
  have brackets : ∀ c ∈ ['(', ')', '[', ']'], c ∉ keyword.toList ∧ c ≠ '\n' := by
    simp only [List.forall_mem_cons, List.not_mem_nil, false_implies, implies_true]
    decide
  have both : ∀ {e : Expr}, (∀ comment inner, e ≠ commented comment inner) →
      (∀ indent, Hangs indent (e.render indent)) → (∀ indent, Hangs indent (e.render indent)) ∧
        ∀ name, Opens name → ∀ indent, Hangs indent (argText indent (some name, e)) := by
    intro e bare hangs
    refine ⟨hangs, fun name named indent => ?_⟩
    rw [argText]
    · exact hangs_named named (hangs indent)
    · exact bare
  induction neat with
  | raw own => exact both (fun _ _ same => by cases same) fun indent => .of_opens own
  | @call name args own labels values ih =>
      refine both (fun _ _ same => by cases same) fun indent => ?_
      have laid : LaidOut indent (name ++ String.singleton '(') (String.singleton ')')
        (fun margin => args.map (argText margin)) _ := laidOut_call indent name args
      refine .of_laidOut (.of_opens own) (brackets _ (by decide)) (brackets _ (by decide)) ?_ laid
      intro margin
      refine List.forall_mem_map.mpr fun a member => ?_
      obtain ⟨label, value⟩ := a
      cases label with
      | none => exact (ih _ member).1 margin
      | some label => exact (ih _ member).2 label (labels _ member label rfl) margin
  | @list items values ih =>
      refine both (fun _ _ same => by cases same) fun indent => ?_
      have laid : LaidOut indent ("" ++ String.singleton '[') (String.singleton ']')
        (fun margin => items.map (render margin)) _ := laidOut_list indent items
      refine .of_laidOut .empty (brackets _ (by decide)) (brackets _ (by decide)) ?_ laid
      exact fun margin => List.forall_mem_map.mpr fun e member => (ih e member).1 margin
  | @commented comment inner own value ih =>
      obtain ⟨-, line⟩ := own
      refine ⟨fun indent => ?_, fun name named indent => ?_⟩
      · have whole := (hangs_comment line).nextLine (ih.1 indent) (Nat.le_refl indent)
        rw [render]
        simp only [String.append_assoc] at whole ⊢
        exact whole
      · have whole := (hangs_comment line).nextLine (hangs_named named (ih.1 indent))
          (Nat.le_refl indent)
        rw [argText]
        simp only [String.append_assoc] at whole ⊢
        exact whole

end

end Handoff.Dart
