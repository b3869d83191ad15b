import Handoff.Proofs.Dart.Printing
import Handoff.Proofs.Text.Alphabet
import Handoff.Proofs.Text.Declared

/-!
The layout of printed expressions.

`erase` takes the layout out of a code: the break of a line after an opening bracket, the comma and
the break before a closing one, and of every other comma with a break all but the comma and a space.
`Expr.oneLine` writes an expression on one line, however long that gets.

A text `Passes` to another if that is what is left of it in front of any code that is on the same
line.  Parts that do are laid out to a text that does (`passes_of_laidOut`), whichever way they are
laid out, so the indents at which an expression is printed do not matter.
-/

namespace Handoff.Dart

open Handoff.Dart.Expr (raw call list commented render over_raw over_call argsOver_append
  argsOver_arg argsOver_positional)

/-! ## Erasing -/

/-- The brackets before arguments and items. -/
def isOpening (c : Char) : Bool := c == '(' || c == '['

/-- The brackets after arguments and items. -/
def isClosing (c : Char) : Bool := c == ')' || c == ']'

/-- A code without the spaces in front of it. -/
def unindented (code : List Char) : List Char := code.dropWhile (· == ' ')

/-- What is left of a character and the line break behind it, given the code on the lines below; a
break after other characters is no layout. -/
def joint? (c : Char) (below : List Char) : Option (List Char) :=
  if isOpening c then some [c]
  else if c = ',' then some (if below.head?.any isClosing then [] else [',', ' '])
  else none

/-- A code without its layout. -/
def erase : List Char → List Char
  | [] => []
  | c :: '\n' :: below =>
    match joint? c (unindented below) with
    | some kept => kept ++ erase (unindented below)
    | none => c :: erase ('\n' :: below)
  | c :: rest => c :: erase rest
termination_by code => code.length
decreasing_by
  · have shorter : (unindented below).length ≤ below.length := (List.dropWhile_sublist _).length_le
    simp only [List.length_cons]
    omega
  · simp
  · simp

section

variable {c : Char} {rest below : List Char} {margin : Nat}

theorem erase_cons (same : rest.head? ≠ some '\n') : erase (c :: rest) = c :: erase rest := by
  rw [erase]
  rintro below rfl
  exact same rfl

theorem unindented_spaces (start : below.head? ≠ some ' ') :
    unindented ((Text.spaces margin).toList ++ below) = below := by
  rw [Text.spaces, String.toList_ofList, unindented, List.dropWhile_append_of_pos]
  · cases below with
    | nil => rfl
    | cons d below =>
        have solid : (d == ' ') = false := by simpa using start
        rw [List.dropWhile_cons_of_neg (by simp [solid])]
  · intro d member
    simp [List.eq_of_mem_replicate member]

/-- A line break behind an opening bracket is erased with the margin below it. -/
theorem erase_opening (opening : isOpening c = true) (start : below.head? ≠ some ' ') :
    erase (c :: '\n' :: ((Text.spaces margin).toList ++ below)) = c :: erase below := by
  rw [erase, unindented_spaces start, joint?, if_pos opening]
  rfl

/-- Behind a comma it is erased with the comma before a closing bracket, and leaves a space
otherwise. -/
theorem erase_comma (start : below.head? ≠ some ' ') :
    erase (',' :: '\n' :: ((Text.spaces margin).toList ++ below)) =
      (if below.head?.any isClosing then [] else [',', ' ']) ++ erase below := by
  have other : isOpening ',' ≠ true := by decide
  rw [erase, unindented_spaces start, joint?, if_neg other, if_pos rfl]

end

/-! ## Expressions on one line -/

namespace Expr

mutual

/-- An expression on one line; a comment has no place there. -/
def oneLine : Expr → String
  | raw text => text
  | commented _ inner => inner.oneLine
  | list items => "[" ++ ", ".intercalate (oneLineItems items) ++ "]"
  | call name args => name ++ "(" ++ ", ".intercalate (oneLineArgs args) ++ ")"

/-- Items on one line. -/
def oneLineItems : List Expr → List String
  | [] => []
  | item :: rest => item.oneLine :: oneLineItems rest

/-- Arguments on one line. -/
def oneLineArgs : List (Option String × Expr) → List String
  | [] => []
  | (some name, value) :: rest => (name ++ ": " ++ value.oneLine) :: oneLineArgs rest
  | (none, value) :: rest => value.oneLine :: oneLineArgs rest

end

/-- An argument on one line. -/
def oneLineArg : Arg → String
  | (some name, value) => name ++ ": " ++ value.oneLine
  | (none, value) => value.oneLine

theorem oneLineItems_eq_map (items : List Expr) : oneLineItems items = items.map oneLine := by
  induction items with
  | nil => rw [oneLineItems, List.map_nil]
  | cons item rest ih => rw [oneLineItems, ih, List.map_cons]

theorem oneLineArgs_eq_map (args : List Arg) : oneLineArgs args = args.map oneLineArg := by
  induction args with
  | nil => rw [oneLineArgs, List.map_nil]
  | cons a rest ih =>
      obtain ⟨label, value⟩ := a
      cases label <;> rw [oneLineArgs, ih, List.map_cons, oneLineArg]

end Expr

open Handoff.Dart.Expr (oneLine oneLineArg oneLineItems_eq_map oneLineArgs_eq_map)

/-! ## Texts that become others -/

section

variable {α : Type} {text line more kept front : String} {c bracket closing : Char}
  {rest : List Char} {margin indent : Nat}

/-- A text becomes another when the layout is erased, if the line goes on behind it; before it the
line goes on as well. -/
def Passes (text kept : String) : Prop :=
  ∀ rest, rest.head? ≠ some '\n' → (text.toList ++ rest).head? ≠ some '\n' ∧
    erase (text.toList ++ rest) = kept.toList ++ erase rest

/-- A text is not taken for layout where a line starts with it. -/
def Begins (text : String) : Prop :=
  ∀ c ∈ text.toList.head?, c ≠ ' ' ∧ isClosing c = false

instance (text : String) : Decidable (Begins text) :=
  text.toList.head?.decidableForallMem (p := fun c => c ≠ ' ' ∧ isClosing c = false)

theorem Passes.append (first : Passes text line) (second : Passes more kept) :
    Passes (text ++ more) (line ++ kept) := by
  intro rest same
  obtain ⟨next, erased⟩ := second rest same
  obtain ⟨whole, erasedWhole⟩ := first _ next
  rw [String.toList_append, String.toList_append, List.append_assoc, List.append_assoc]
  exact ⟨whole, by rw [erasedWhole, erased]⟩

/-- A text of one line stays as it is. -/
theorem passes_of_oneLine (single : Text.OneLine text) : Passes text text := by
  have chars : ∀ cs : List Char, '\n' ∉ cs → ∀ rest : List Char, rest.head? ≠ some '\n' →
      (cs ++ rest).head? ≠ some '\n' ∧ erase (cs ++ rest) = cs ++ erase rest := by
    intro cs none rest same
    induction cs with
    | nil => exact ⟨same, rfl⟩
    | cons c cs ih =>
        obtain ⟨other, others⟩ := not_or.mp (mt List.mem_cons.mpr none)
        obtain ⟨next, erased⟩ := ih others
        refine ⟨fun feed => other (Option.some.inj feed).symm, ?_⟩
        rw [List.cons_append, erase_cons next, erased, List.cons_append]
  exact chars text.toList single

theorem passes_intercalate {items : List α} {write keep : α → String}
    (each : ∀ a ∈ items, Passes (write a) (keep a)) :
    Passes (", ".intercalate (items.map write)) (", ".intercalate (items.map keep)) := by
  induction items with
  | nil => exact passes_of_oneLine List.not_mem_nil
  | cons a more ih =>
      obtain ⟨own, others⟩ := List.forall_mem_cons.mp each
      cases more with
      | nil => simpa using own
      | cons b more =>
          have later := ih others
          simp only [List.map_cons, String.intercalate_cons_cons] at later ⊢
          exact (own.append (passes_of_oneLine (by decide))).append later

/-! ## Blocks -/

/-- A line that starts with a part, and has something behind it, starts with no layout. -/
theorem Begins.head (begins : Begins text) (rest : List Char) (next : c ≠ ' ') (inside : isClosing c = false) :
    (text.toList ++ c :: rest).head? ≠ some ' ' ∧
      (text.toList ++ c :: rest).head?.any isClosing = false := by
  cases chars : text.toList with
  | nil => exact ⟨fun same => next (Option.some.inj same), inside⟩
  | cons d others =>
      obtain ⟨solid, inner⟩ := begins d (by rw [chars]; rfl)
      exact ⟨fun same => solid (Option.some.inj same), inner⟩

/-- The code from the first part of a block on to the bracket below it. -/
def below (margin indent : Nat) (parts : List String) (closing : Char) (rest : List Char) :
    List Char :=
  (block margin parts).toList ++ ((Text.spaces indent).toList ++ closing :: rest)

theorem below_cons (part : String) (parts : List String) :
    below margin indent (part :: parts) closing rest = (Text.spaces margin).toList ++
      (part.toList ++ ',' :: '\n' :: below margin indent parts closing rest) := by
  simp [below, block_cons]

theorem below_nil : below margin indent [] closing rest =
    (Text.spaces indent).toList ++ closing :: rest := by
  rw [below, block, List.map_nil, String.join_nil]
  rfl

theorem head?_closing (isClosing : isClosing closing = true) :
    (closing :: rest).head? ≠ some ' ' := by
  rintro ⟨⟩
  cases isClosing

/-- From one part of a block on, each part is kept and so is the comma behind it with a space, but
not the last comma. -/
theorem erase_parts (isClosing : isClosing closing = true) {write keep : α → String} {a : α}
    {items : List α} (each : ∀ b ∈ a :: items, Passes (write b) (keep b) ∧ Begins (write b)) :
    erase ((write a).toList ++ ',' :: '\n' :: below margin indent (items.map write) closing rest) =
      (", ".intercalate ((a :: items).map keep)).toList ++ erase (closing :: rest) := by
  induction items generalizing a with
  | nil =>
      have own := (each a List.mem_cons_self).1
      rw [(own _ (by simp)).2, List.map_nil, below_nil, erase_comma (head?_closing isClosing)]
      simp [isClosing]
  | cons b more ih =>
      obtain ⟨⟨own, -⟩, others⟩ := List.forall_mem_cons.mp each
      obtain ⟨-, begins⟩ := others b List.mem_cons_self
      obtain ⟨start, inner⟩ := begins.head ('\n' ::
        below margin indent (more.map write) closing rest) (by decide : ',' ≠ ' ') rfl
      rw [(own _ (by simp)).2, List.map_cons, below_cons, erase_comma start, inner, ih others]
      simp [String.intercalate_cons_cons]

/-- A block between two brackets becomes one line. -/
theorem passes_block (margin indent : Nat) (opening : isOpening bracket = true)
    (closes : isClosing closing = true) {items : List α} {write keep : α → String}
    (each : ∀ a ∈ items, Passes (write a) (keep a) ∧ Begins (write a)) :
    Passes (String.singleton bracket ++ "\n" ++ block margin (items.map write) ++
        Text.spaces indent ++ String.singleton closing)
      (String.singleton bracket ++ ", ".intercalate (items.map keep) ++
        String.singleton closing) := by
  intro rest same
  have written : (String.singleton bracket ++ "\n" ++ block margin (items.map write) ++
      Text.spaces indent ++ String.singleton closing).toList ++ rest =
        bracket :: '\n' :: below margin indent (items.map write) closing rest := by
    simp [below]
  have kept : (String.singleton bracket ++ ", ".intercalate (items.map keep) ++
      String.singleton closing).toList ++ erase rest =
        bracket :: ((", ".intercalate (items.map keep)).toList ++ erase (closing :: rest)) := by
    rw [erase_cons same]
    simp
  rw [written, kept]
  constructor
  · rintro ⟨⟩
    cases opening
  · cases items with
    | nil =>
        rw [List.map_nil, below_nil, erase_opening opening (head?_closing closes)]
        rfl
    | cons a more =>
        obtain ⟨-, begins⟩ := each a List.mem_cons_self
        obtain ⟨start, -⟩ := begins.head ('\n' ::
          below margin indent (more.map write) closing rest) (by decide : ',' ≠ ' ') rfl
        rw [List.map_cons, below_cons, erase_opening opening start, erase_parts closes each]

/-- However the parts between two brackets are laid out, they become the same line. -/
theorem passes_of_laidOut {write : Nat → α → String} {keep : α → String} {items : List α}
    (single : Text.OneLine front) (opening : isOpening bracket = true)
    (closes : isClosing closing = true)
    (each : ∀ margin, ∀ a ∈ items, Passes (write margin a) (keep a) ∧ Begins (write margin a))
    (laid : LaidOut indent (front ++ String.singleton bracket) (String.singleton closing)
      (fun margin => items.map (write margin)) text) :
    Passes text (front ++ String.singleton bracket ++ ", ".intercalate (items.map keep) ++
      String.singleton closing) := by
  have ofBracket : ∀ c, isOpening c = true ∨ isClosing c = true →
      Text.OneLine (String.singleton c) := by
    rintro c bracket member
    rw [String.toList_singleton, List.mem_singleton] at member
    rw [← member] at bracket
    revert bracket
    decide
  cases laid with
  | line =>
      have head := Text.oneLine_append.mpr ⟨single, ofBracket bracket (.inl opening)⟩
      have between := passes_intercalate fun a member => (each indent a member).1
      exact ((passes_of_oneLine head).append between).append
        (passes_of_oneLine (ofBracket closing (.inr closes)))
  | block =>
      have inside := passes_block (indent + 2) indent opening closes (each (indent + 2))
      have whole := (passes_of_oneLine single).append inside
      simpa only [String.append_assoc] using whole

end

/-! ## Expressions -/

/-- A text that has no line break and does not start with what is taken for layout. -/
def Inert (text : String) : Prop := Text.OneLine text ∧ Begins text

instance (text : String) : Decidable (Inert text) :=
  inferInstanceAs (Decidable (Text.OneLine text ∧ Begins text))

/-- Expressions without comments, all of whose copied texts are inert.  The names of calls and
arguments are copied as raw texts are, so it takes the same of them, and any name in the language
is inert. -/
def Expr.Quiet (e : Expr) : Prop := e.Over (fun _ => False) Inert

section

variable {front name text kept closing : String} {bracket c : Char} {indent : Nat} {e value : Expr}
  {label : Option String}

theorem begins_append (begins : Begins front) (solid : c ≠ ' ') (inside : isClosing c = false) :
    Begins (front ++ String.singleton c ++ text) := by
  intro d first
  cases chars : front.toList with
  | nil =>
      rw [String.toList_append, String.toList_append, chars, String.toList_singleton] at first
      cases first
      exact ⟨solid, inside⟩
  | cons own others =>
      rw [String.toList_append, String.toList_append, chars] at first
      exact begins d (by rw [chars]; exact first)

theorem begins_of_laidOut {parts : Nat → List String} (begins : Begins front)
    (opening : isOpening bracket = true)
    (laid : LaidOut indent (front ++ String.singleton bracket) closing parts text) :
    Begins text := by
  have solid : bracket ≠ ' ' ∧ isClosing bracket = false := by
    constructor
    · rintro rfl
      cases opening
    · revert opening
      simp only [isOpening, isClosing, Bool.or_eq_true, beq_iff_eq]
      rintro (rfl | rfl) <;> decide
  cases laid with
  | line | block =>
      simp only [String.append_assoc]
      rw [← String.append_assoc]
      exact begins_append begins solid.1 solid.2

/-- An argument becomes its line if its value does. -/
theorem passes_argText (named : ∀ name, label = some name → Inert name)
    (quiet : value.Quiet)
    (own : ∀ margin, Passes (value.render margin) value.oneLine ∧ Begins (value.render margin))
    (margin : Nat) :
    Passes (argText margin (label, value)) (oneLineArg (label, value)) ∧
      Begins (argText margin (label, value)) := by
  cases label with
  | none =>
      rw [argText, oneLineArg]
      exact own margin
  | some name =>
      obtain ⟨single, begins⟩ := named name rfl
      have colon : Text.OneLine (name ++ ": ") := Text.oneLine_append.mpr ⟨single, by decide⟩
      have whole := (passes_of_oneLine colon).append (own margin).1
      have uncommented : argText margin (some name, value) = name ++ ": " ++ value.render margin := by
        cases quiet with
        | commented absent _ => exact absent.elim
        | raw | call | list =>
            rw [argText]
            exact fun _ _ same => by cases same
      have split : ": " = String.singleton ':' ++ " " := rfl
      rw [uncommented, oneLineArg]
      refine ⟨whole, ?_⟩
      rw [split]
      simp only [← String.append_assoc]
      rw [String.append_assoc]
      exact begins_append begins (by decide) rfl

/-- Whatever the indent, an expression becomes its line. -/
theorem passes_render (quiet : e.Quiet) : ∀ indent,
    Passes (e.render indent) e.oneLine ∧ Begins (e.render indent) := by
  unfold Expr.Quiet at quiet
  induction quiet with
  | raw own =>
      intro indent
      rw [render, oneLine]
      exact ⟨passes_of_oneLine own.1, own.2⟩
  | @call name args own labels values ih =>
      intro indent
      have laid : LaidOut indent (name ++ String.singleton '(') (String.singleton ')')
        (fun margin => args.map (argText margin)) _ := laidOut_call indent name args
      have each : ∀ margin, ∀ a ∈ args,
          Passes (argText margin a) (oneLineArg a) ∧ Begins (argText margin a) :=
        fun margin a member => passes_argText (labels a member) (values a member) (ih a member) margin
      have passes := passes_of_laidOut own.1 rfl rfl each laid
      rw [oneLine, oneLineArgs_eq_map]
      exact ⟨passes, begins_of_laidOut own.2 rfl laid⟩
  | @list items values ih =>
      intro indent
      have laid : LaidOut indent ("" ++ String.singleton '[') (String.singleton ']')
        (fun margin => items.map (render margin)) _ := laidOut_list indent items
      have passes := passes_of_laidOut (by decide) rfl rfl (fun margin e member => ih e member margin)
        laid
      have empty : Begins "" := by simp [Begins]
      rw [oneLine, oneLineItems_eq_map]
      exact ⟨passes, begins_of_laidOut empty rfl laid⟩
  | commented absent _ _ => exact absent.elim

/-- Without its layout an expression is its line. -/
theorem erase_eq_oneLine (quiet : e.Quiet) (indent : Nat) :
    erase (e.render indent).toList = e.oneLine.toList := by
  have whole := ((passes_render quiet indent).1 [] nofun).2
  rwa [List.append_nil, erase, List.append_nil] at whole

/-- An expression that is printed without a line break is printed as its line. -/
theorem render_eq_oneLine (quiet : e.Quiet) (single : Text.OneLine (e.render indent)) :
    e.render indent = e.oneLine := by
  have kept := (passes_of_oneLine single [] nofun).2
  rw [List.append_nil, erase, List.append_nil, erase_eq_oneLine quiet indent] at kept
  exact (String.toList_inj.mp kept).symm

/-- The indent decides on the layout of an expression only: printed at one indent or at another, it
is the same code but for the layout, and that is the code of its line. -/
theorem erase_render (quiet : e.Quiet) (first second : Nat) :
    erase (e.render first).toList = erase (e.render second).toList ∧
      erase (e.render first).toList = e.oneLine.toList := by
  have own := erase_eq_oneLine quiet
  exact ⟨(own first).trans (own second).symm, own first⟩

/-- A text in a box, with a margin around it. -/
def padded : Expr :=
  call "Padding" (arg "padding" (raw "EdgeInsets.all(8.0)") ++
    arg "child" (call "Text" (positional (raw "'Hi'"))))

/-- Far to the right the text is on a line of its own, which makes no other code of it. -/
theorem erase_render_padded : padded.Quiet ∧ padded.render 0 ≠ padded.render 70 ∧
    erase (padded.render 0).toList = erase (padded.render 70).toList ∧
    erase (padded.render 0).toList =
      "Padding(padding: EdgeInsets.all(8.0), child: Text('Hi'))".toList := by
  have quiet : padded.Quiet := by
    have insets : Inert "EdgeInsets.all(8.0)" := by decide
    have letters : Inert "'Hi'" := by decide
    unfold padded Expr.Quiet
    simp (disch := decide) only [over_call, argsOver_append, argsOver_arg, argsOver_positional,
      over_raw, insets, letters, and_self]
  obtain ⟨same, line⟩ := erase_render quiet 0 70
  exact ⟨quiet, by decide +kernel, same, line.trans (by decide +kernel)⟩

end

end Handoff.Dart
