import Handoff.Json.Basic
import Handoff.Decimal.Shortest
import Handoff.Text.Hexadecimal

/-!
# Writing JSON

Two layouts: `Json.compact` without any space, `Json.pretty` with every item and field
on a line of its own, indented by two spaces.  Inside strings only the quote, the
backslash and control characters are escaped.  An infinity or NaN is written `null`.
-/

namespace Handoff.Json

/-- A character inside a string. -/
def escape (c : Char) : List Char :=
  match c with
  | '"' => ['\\', '"']
  | '\\' => ['\\', '\\']
  | '\n' => ['\\', 'n']
  | '\r' => ['\\', 'r']
  | '\t' => ['\\', 't']
  | '\x08' => ['\\', 'b']
  | '\x0c' => ['\\', 'f']
  | c => if c.toNat < 0x20 then ['\\', 'u', '0', '0'] ++ Text.hexPair c.toNat else [c]

/-- A string in quotes. -/
def quoted (s : String) : String :=
  String.ofList ('"' :: s.toList.flatMap escape ++ ['"'])

/-- The values that are written the same way in both layouts. -/
def scalarText? : Json → Option String
  | null => some "null"
  | bool true => some "true"
  | bool false => some "false"
  | int n => some (toString n)
  | double x => some ((Decimal.doubleText? x).getD "null")
  | single x => some ((Decimal.singleText? x).getD "null")
  | str s => some (quoted s)
  | arr [] => some "[]"
  | obj [] => some "\x7b\x7d"
  | _ => none

mutual

/-- A value without any space. -/
def compact : Json → String
  | arr items => "[" ++ compactItems items ++ "]"
  | obj fields => "\x7b" ++ compactFields fields ++ "\x7d"
  | scalar => (scalarText? scalar).getD ""

/-- The items of an array, separated by commas. -/
def compactItems : List Json → String
  | [] => ""
  | [item] => compact item
  | item :: rest => compact item ++ "," ++ compactItems rest

/-- The fields of an object, separated by commas. -/
def compactFields : List (String × Json) → String
  | [] => ""
  | [(name, value)] => quoted name ++ ":" ++ compact value
  | (name, value) :: rest =>
    quoted name ++ ":" ++ compact value ++ "," ++ compactFields rest

end

/-- A new line at the given depth. -/
def newLine (depth : Nat) : String :=
  String.ofList ('\n' :: List.replicate (2 * depth) ' ')

mutual

/-- A value at the given depth, one item or field a line. -/
def prettyAt (depth : Nat) : Json → String
  | arr [] => "[]"
  | arr items =>
    "[" ++ prettyItems (depth + 1) items ++ newLine depth ++ "]"
  | obj [] => "\x7b\x7d"
  | obj fields =>
    "\x7b" ++ prettyFields (depth + 1) fields ++ newLine depth ++ "\x7d"
  | scalar => (scalarText? scalar).getD ""

/-- The items of an array, each on its line. -/
def prettyItems (depth : Nat) : List Json → String
  | [] => ""
  | [item] => newLine depth ++ prettyAt depth item
  | item :: rest => newLine depth ++ prettyAt depth item ++ "," ++ prettyItems depth rest

/-- The fields of an object, each on its line. -/
def prettyFields (depth : Nat) : List (String × Json) → String
  | [] => ""
  | [(name, value)] => newLine depth ++ quoted name ++ ": " ++ prettyAt depth value
  | (name, value) :: rest =>
    newLine depth ++ quoted name ++ ": " ++ prettyAt depth value ++ "," ++
      prettyFields depth rest

end

/-- A value with one item or field a line. -/
def pretty (json : Json) : String :=
  prettyAt 0 json

end Handoff.Json
