/-!
# JSON values

The value that selections, stored settings and design trees are read from and written
to.  Numbers keep apart whether they are integers, doubles or singles, because each is
written in its own way.

The fields of an object keep their order; `Json.put` replaces the value of a name that
is there already, so that of two equal names the last one counts.
-/

namespace Handoff

/-- A JSON value. -/
inductive Json where
  | null
  | bool (value : Bool)
  | int (value : Int)
  | double (value : Float)
  | single (value : Float32)
  | str (value : String)
  | arr (items : List Json)
  | obj (fields : List (String × Json))
deriving Inhabited

namespace Json

/-- The coarse type of a value; all numbers have one type. -/
inductive Kind where
  | null
  | bool
  | number
  | string
  | array
  | object
deriving DecidableEq, Repr

/-- The type of a value. -/
def kind : Json → Kind
  | null => .null
  | bool _ => .bool
  | int _ | double _ | single _ => .number
  | str _ => .string
  | arr _ => .array
  | obj _ => .object

/-- Sets a field, in its place if the name is there already. -/
def put (fields : List (String × Json)) (name : String) (value : Json) :
    List (String × Json) :=
  match fields with
  | [] => [(name, value)]
  | (n, v) :: rest =>
    if n = name then (n, value) :: rest else (n, v) :: put rest name value

/-- The value of a field of an object. -/
def field? (name : String) : Json → Option Json
  | obj fields => fields.lookup name
  | _ => none

/-- A field that is written as `null` when there is no value. -/
def ofOption {α : Type} (encode : α → Json) : Option α → Json
  | some a => encode a
  | none => null

/-- A list written item by item. -/
def ofList {α : Type} (encode : α → Json) (items : List α) : Json :=
  arr (items.map encode)

end Json

end Handoff
