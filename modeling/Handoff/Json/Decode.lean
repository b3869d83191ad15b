import Handoff.Json.Basic
import Handoff.Decimal.Binary

/-!
# Decoding JSON

A decoder gives the value that a JSON value stands for, or nothing.  There is no
coercion between types; an integer counts as a float.

A record is written as an object of named fields or as an array of its fields in order.
`Fields` is the view of both, and the three ways to read a field say what happens when it
is missing: `required` fails, `withDefault` takes the default, and `optional` is none for
a named field and fails in an array.
-/

namespace Handoff.Json

/-- A decoder for values of `α`. -/
abbrev Decoder (α : Type) := Json → Option α

/-! ## Scalars -/

/-- A truth value. -/
def bool? : Decoder Bool
  | bool b => some b
  | _ => none

/-- A string. -/
def text? : Decoder String
  | str s => some s
  | _ => none

/-- The number `n` without exponent. -/
def integer (n : Int) : Decimal.Binary := ⟨decide (n < 0), n.natAbs, 0⟩

/-- A number as a double. -/
def double? : Decoder Float
  | int n => some (integer n).toFloat
  | double x => some x
  | single x => some (Decimal.widen x)
  | _ => none

/-- A number as a single. -/
def single? : Decoder Float32
  | int n => some (integer n).toFloat32
  | double x => some (Decimal.narrow x)
  | single x => some x
  | _ => none

/-- An integer from zero up to `limit`. -/
def natUpTo? (limit : Nat) : Decoder Nat
  | int n => if 0 ≤ n ∧ n ≤ limit then some n.toNat else none
  | _ => none

/-! ## Combinators -/

/-- An array whose items all decode. -/
def list? {α : Type} (decode : Decoder α) : Decoder (List α)
  | arr items => items.mapM decode
  | _ => none

/-- A value, or none for `null`. -/
def nullable? {α : Type} (decode : Decoder α) : Decoder (Option α)
  | null => some none
  | json => (decode json).map some

/-- The name that a plain enumeration value is written as: a string, or an object whose
only field has the name and no value. -/
def tag? : Decoder String
  | str s => some s
  | obj [(name, null)] => some name
  | _ => none

/-! ## Records -/

/-- The fields of a record. -/
structure Fields where
  entries : List (String × Json)
  /-- Whether the record was written as an object. -/
  named : Bool

/-- The fields of a record with the given field names. -/
def fields? (names : List String) : Decoder Fields
  | obj entries => some ⟨entries, true⟩
  | arr items => if items.length ≤ names.length then some ⟨names.zip items, false⟩ else none
  | _ => none

namespace Fields

/-- A field that has to be there. -/
def required {α : Type} (f : Fields) (name : String) (decode : Decoder α) : Option α :=
  (f.entries.lookup name).bind decode

/-- A field that has a default. -/
def withDefault {α : Type} (f : Fields) (name : String) (default : α) (decode : Decoder α) :
    Option α :=
  match f.entries.lookup name with
  | some json => decode json
  | none => some default

/-- A field that may be `null`; a missing one is none if the record is an object. -/
def optional {α : Type} (f : Fields) (name : String) (decode : Decoder α) :
    Option (Option α) :=
  match f.entries.lookup name with
  | some json => nullable? decode json
  | none => if f.named then some none else none

end Fields

end Handoff.Json
