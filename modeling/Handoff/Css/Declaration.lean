import Handoff.Text.Words

/-!
# Declarations

A list of CSS declarations, in which each property has one value.  `set` gives a property
a value: a property that is there keeps its place, a new one goes to the end.
-/

namespace Handoff.Css

/-- A property and its value. -/
structure Declaration where
  property : String
  value : String
deriving DecidableEq, Repr

/-- Sets a property. -/
def set (declarations : List Declaration) (d : Declaration) : List Declaration :=
  match declarations with
  | [] => [d]
  | e :: rest => if e.property = d.property then d :: rest else e :: set rest d

/-- The declarations that are left after setting each in turn. -/
def settle (declarations : List Declaration) : List Declaration :=
  declarations.foldl set []

/-- `property: value`. -/
def Declaration.text (d : Declaration) : String := d.property ++ ": " ++ d.value

/-- The name of a property in a style object: camel case, a vendor name with a capital. -/
def scriptName (property : String) : String :=
  match property.toList with
  | '-' :: vendor => Text.pascal (String.ofList vendor)
  | _ => Text.camel property

/-- A rule of a style sheet. -/
structure Rule where
  className : String
  declarations : List Declaration
deriving DecidableEq, Repr

/-- A rule, one declaration a line. -/
def Rule.text (r : Rule) : String :=
  "." ++ r.className ++ " \x7b\n" ++
    "\n".intercalate (r.declarations.map fun d => "  " ++ d.text ++ ";") ++ "\n\x7d"

/-- Rules with an empty line between them. -/
def styleSheet (rules : List Rule) : String :=
  "\n\n".intercalate (rules.map Rule.text)

end Handoff.Css
