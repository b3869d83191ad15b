import Handoff.Text.Lines

/-!
# Dart expressions

Widgets are built as expressions and printed in one place.  A call or list is written on
one line if all it holds is raw text and the line does not get too long; otherwise every
argument or item has a line of its own, with a comma after it.
-/

namespace Handoff.Dart

/-- An expression. -/
inductive Expr where
  /-- Text that is an expression already. -/
  | raw (text : String)
  /-- A call with its arguments, some of them named. -/
  | call (name : String) (args : List (Option String × Expr))
  | list (items : List Expr)
  /-- An expression under a comment. -/
  | commented (comment : String) (inner : Expr)

/-- An argument of a call. -/
abbrev Arg := Option String × Expr

/-- A named argument. -/
def arg (name : String) (value : Expr) : List Arg := [(some name, value)]

/-- A named argument that may be left out. -/
def argOpt (name : String) (value : Option Expr) : List Arg :=
  value.toList.map fun v => (some name, v)

/-- An argument without a name. -/
def positional (value : Expr) : List Arg := [(none, value)]

namespace Expr

/-- The text of an expression that is raw. -/
def raw? : Expr → Option String
  | raw text => some text
  | _ => none

/-- The longest line, in bytes, that a call or list is written on. -/
def lineWidth : Nat := 80

/-- A line, if it is not too long at the given indent. -/
def fitting? (indent : Nat) (line : String) : Option String :=
  if indent + line.utf8ByteSize ≤ lineWidth then some line else none

/-- An argument whose value is raw. -/
def rawArg? : Arg → Option String
  | (some name, raw text) => some (name ++ ": " ++ text)
  | (none, raw text) => some text
  | _ => none

/-- A list on one line, if all its items are raw and it fits. -/
def inlineList? (indent : Nat) (items : List Expr) : Option String := do
  let texts ← items.mapM raw?
  fitting? indent ("[" ++ ", ".intercalate texts ++ "]")

/-- A call on one line, if all its arguments are raw and it fits. -/
def inlineCall? (indent : Nat) (name : String) (args : List Arg) : Option String := do
  let texts ← args.mapM rawArg?
  fitting? indent (name ++ "(" ++ ", ".intercalate texts ++ ")")

mutual

/-- The text of an expression whose first line starts at the given indent. -/
def render (indent : Nat) : Expr → String
  | raw text => text
  | commented comment inner =>
    "// " ++ comment ++ "\n" ++ Text.spaces indent ++ inner.render indent
  | list [] => "[]"
  | list (item :: items) =>
    match inlineList? indent (item :: items) with
    | some line => line
    | none =>
      "[\n" ++ renderItems (indent + 2) (item :: items) ++ Text.spaces indent ++ "]"
  | call name [] => name ++ "()"
  | call name (first :: args) =>
    match inlineCall? indent name (first :: args) with
    | some line => line
    | none =>
      name ++ "(\n" ++ renderArgs (indent + 2) (first :: args) ++ Text.spaces indent ++ ")"

/-- Items, each on a line of its own. -/
def renderItems (indent : Nat) : List Expr → String
  | [] => ""
  | item :: rest =>
    Text.spaces indent ++ item.render indent ++ ",\n" ++ renderItems indent rest

/-- Arguments, each on a line of its own; a comment stands before the name. -/
def renderArgs (indent : Nat) : List (Option String × Expr) → String
  | [] => ""
  | (some name, commented comment inner) :: rest =>
    Text.spaces indent ++ "// " ++ comment ++ "\n" ++ Text.spaces indent ++ name ++ ": " ++
      inner.render indent ++ ",\n" ++ renderArgs indent rest
  | (some name, value) :: rest =>
    Text.spaces indent ++ name ++ ": " ++ value.render indent ++ ",\n" ++ renderArgs indent rest
  | (none, value) :: rest =>
    Text.spaces indent ++ value.render indent ++ ",\n" ++ renderArgs indent rest

end

end Expr

end Handoff.Dart
