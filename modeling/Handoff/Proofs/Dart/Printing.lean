import Handoff.Dart.Expr

/-!
How expressions are printed.

What stands between the brackets of a call or list is a list of parts: the arguments or the items,
each with its text behind a margin.  `LaidOut` says that the parts are either on one line or each
on a line of its own, and calls and lists are laid out so in the same way (`laidOut_call`,
`laidOut_list`).  Which of the two it is depends on the indent and on the length of the line, and
nothing that is shown by these lemmas looks at it.

`Expr.Over` goes through an expression down to the texts that are copied into the code.
-/

namespace Handoff.Dart

open Handoff.Dart.Expr (raw call list commented render renderArgs renderItems inlineCall?
  inlineList? fitting? rawArg? raw?)

/-! ## Parts -/

/-- The text of an argument behind a margin; a comment stands before the name. -/
def argText (margin : Nat) : Arg → String
  | (some name, commented comment inner) =>
    "// " ++ comment ++ "\n" ++ Text.spaces margin ++ name ++ ": " ++ inner.render margin
  | (some name, value) => name ++ ": " ++ value.render margin
  | (none, value) => value.render margin

/-- Parts, each on a line of its own. -/
def block (margin : Nat) (parts : List String) : String :=
  String.join (parts.map fun part => Text.spaces margin ++ part ++ ",\n")

/-- The text between brackets has the parts on one line, or each on a line of its own. -/
inductive LaidOut (indent : Nat) (opening closing : String) (parts : Nat → List String) :
    String → Prop
  | line : LaidOut indent opening closing parts
      (opening ++ ", ".intercalate (parts indent) ++ closing)
  | block : LaidOut indent opening closing parts (opening ++ "\n" ++
      block (indent + 2) (parts (indent + 2)) ++ Text.spaces indent ++ closing)

section

variable {indent margin : Nat} {name line kept : String} {args : List Arg} {items : List Expr}
  {texts : List String}

theorem block_cons (part : String) (parts : List String) : block margin (part :: parts) =
    Text.spaces margin ++ part ++ ",\n" ++ block margin parts := by
  rw [block, List.map_cons, String.join_cons, block]

theorem renderItems_eq_block (items : List Expr) :
    renderItems margin items = block margin (items.map (render margin)) := by
  induction items with
  | nil => rw [renderItems, List.map_nil, block, List.map_nil, String.join_nil]
  | cons item rest ih => rw [renderItems, ih, List.map_cons, block_cons]

theorem renderArgs_eq_block (args : List Arg) :
    renderArgs margin args = block margin (args.map (argText margin)) := by
  induction args with
  | nil => rw [renderArgs, List.map_nil, block, List.map_nil, String.join_nil]
  | cons a rest ih =>
      rw [List.map_cons, block_cons, ← ih]
      obtain ⟨label, value⟩ := a
      cases label with
      | none => rw [renderArgs, argText]
      | some name =>
          cases value with
          | commented comment inner =>
              rw [renderArgs, argText]
              simp only [String.append_assoc]
          | raw | call | list =>
              rw [renderArgs, argText] <;> simp [String.append_assoc]

theorem eq_of_fitting? (fits : fitting? indent line = some kept) : line = kept := by
  unfold fitting? at fits
  split at fits
  · exact Option.some.inj fits
  · cases fits

/-- Parts that are read one by one have the texts that they are read as. -/
theorem map_eq_of_mapM {α : Type} {read : α → Option String} {write : α → String} {parts : List α}
    (reads : ∀ a text, read a = some text → write a = text)
    (all : parts.mapM read = some texts) : parts.map write = texts := by
  induction parts generalizing texts with
  | nil =>
      cases all
      rfl
  | cons a rest ih =>
      rw [List.mapM_cons] at all
      obtain ⟨text, own, all⟩ := Option.bind_eq_some_iff.mp all
      obtain ⟨others, later, same⟩ := Option.bind_eq_some_iff.mp all
      cases same
      rw [List.map_cons, reads a text own, ih later]

theorem render_of_raw? (margin : Nat) (e : Expr) (text : String) (isRaw : raw? e = some text) :
    e.render margin = text := by
  cases e with
  | raw own =>
      cases isRaw
      rfl
  | call | list | commented => cases isRaw

theorem argText_of_rawArg? (margin : Nat) (a : Arg) (text : String) (isRaw : rawArg? a = some text) :
    argText margin a = text := by
  obtain ⟨label, value⟩ := a
  cases value with
  | raw own => cases label <;> cases isRaw <;> rfl
  | call | list | commented => cases label <;> cases isRaw

/-- A list is laid out with its items as parts. -/
theorem laidOut_list (indent : Nat) (items : List Expr) :
    LaidOut indent "[" "]" (fun margin => items.map (render margin))
      ((list items).render indent) := by
  cases items with
  | nil =>
      rw [render]
      exact .line
  | cons item rest =>
      rw [render]
      split
      · rename_i line inline
        obtain ⟨texts, raws, fits⟩ := Option.bind_eq_some_iff.mp inline
        rw [← eq_of_fitting? fits, ← map_eq_of_mapM (render_of_raw? indent) raws]
        exact .line
      · rw [renderItems_eq_block]
        exact .block

/-- A call is laid out with its arguments as parts. -/
theorem laidOut_call (indent : Nat) (name : String) (args : List Arg) :
    LaidOut indent (name ++ "(") ")" (fun margin => args.map (argText margin))
      ((call name args).render indent) := by
  cases args with
  | nil =>
      have empty : name ++ "()" = name ++ "(" ++ "" ++ ")" := by
        rw [String.append_empty, String.append_assoc]
        rfl
      rw [render, empty]
      exact .line
  | cons first rest =>
      rw [render]
      split
      · rename_i line inline
        obtain ⟨texts, raws, fits⟩ := Option.bind_eq_some_iff.mp inline
        rw [← eq_of_fitting? fits, ← map_eq_of_mapM (argText_of_rawArg? indent) raws]
        exact .line
      · have opening : name ++ "(\n" = name ++ "(" ++ "\n" := by
          rw [String.append_assoc]
          rfl
        rw [renderArgs_eq_block, opening]
        exact .block

end

/-! ## Copied texts -/

namespace Expr

/-- All comments in an expression are of a kind, and all other texts that are copied into the code:
what is raw and the names of calls and of arguments. -/
inductive Over (comments texts : String → Prop) : Expr → Prop
  | raw {text : String} (own : texts text) : Over comments texts (raw text)
  | call {name : String} {args : List Arg} (own : texts name)
      (labels : ∀ a ∈ args, ∀ label, a.1 = some label → texts label)
      (values : ∀ a ∈ args, Over comments texts a.2) : Over comments texts (call name args)
  | list {items : List Expr} (values : ∀ e ∈ items, Over comments texts e) :
      Over comments texts (list items)
  | commented {comment : String} {inner : Expr} (own : comments comment)
      (value : Over comments texts inner) : Over comments texts (commented comment inner)

/-- Arguments whose names and values are of these kinds. -/
def ArgsOver (comments texts : String → Prop) (args : List Arg) : Prop :=
  ∀ a ∈ args, (∀ label, a.1 = some label → texts label) ∧ a.2.Over comments texts

/-- Whatever is there is of these kinds. -/
def Over? (comments texts : String → Prop) (given : Option Expr) : Prop :=
  ∀ e, given = some e → e.Over comments texts

section

variable {comments texts others wider : String → Prop} {name text : String} {e : Expr}
  {args first later : List Arg} {items : List Expr} {given : Option Expr}

theorem Over.mono (each : e.Over comments texts) (remarks : ∀ s, comments s → others s)
    (copies : ∀ s, texts s → wider s) : e.Over others wider := by
  induction each with
  | raw own => exact .raw (copies _ own)
  | call own labels _ ih =>
      exact .call (copies _ own) (fun a member label named => copies _ (labels a member label named))
        ih
  | list _ ih => exact .list ih
  | commented own _ ih => exact .commented (remarks _ own) ih

@[simp] theorem over_raw : (raw text).Over comments texts ↔ texts text := by
  constructor
  · rintro ⟨⟩
    assumption
  · exact .raw

@[simp] theorem over_call (own : texts name) :
    (call name args).Over comments texts ↔ ArgsOver comments texts args := by
  constructor
  · rintro ⟨⟩
    exact fun a member =>
      ⟨‹∀ a ∈ args, ∀ label, _› a member, ‹∀ a ∈ args, Over _ _ _› a member⟩
  · intro each
    exact .call own (fun a member => (each a member).1) fun a member => (each a member).2

@[simp] theorem over_list :
    (list items).Over comments texts ↔ ∀ e ∈ items, e.Over comments texts := by
  constructor
  · rintro ⟨⟩
    assumption
  · exact .list

@[simp] theorem over?_none : Over? comments texts none :=
  fun _ absent => nomatch absent

@[simp] theorem over?_some : Over? comments texts (some e) ↔ e.Over comments texts := by
  constructor
  · exact fun each => each e rfl
  · rintro each _ ⟨⟩
    exact each

theorem over?_map {α : Type} {f : α → Expr} (each : ∀ a, (f a).Over comments texts)
    (value : Option α) : Over? comments texts (value.map f) := by
  intro e present
  obtain ⟨a, -, rfl⟩ := Option.map_eq_some_iff.mp present
  exact each a

@[simp] theorem argsOver_nil : ArgsOver comments texts [] :=
  List.forall_mem_nil _

@[simp] theorem argsOver_append : ArgsOver comments texts (first ++ later) ↔
    ArgsOver comments texts first ∧ ArgsOver comments texts later :=
  List.forall_mem_append

@[simp] theorem argsOver_arg (own : texts name) :
    ArgsOver comments texts (arg name e) ↔ e.Over comments texts := by
  simp [ArgsOver, arg, own]

@[simp] theorem argsOver_positional :
    ArgsOver comments texts (positional e) ↔ e.Over comments texts := by
  simp [ArgsOver, positional]

@[simp] theorem argsOver_argOpt (own : texts name) :
    ArgsOver comments texts (argOpt name given) ↔ Over? comments texts given := by
  cases given with
  | none => simp [argOpt]
  | some e => exact (argsOver_arg own).trans over?_some.symm

end

end Expr

end Handoff.Dart
