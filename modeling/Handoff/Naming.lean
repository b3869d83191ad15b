import Handoff.Text.Words
import Handoff.Text.Lines

/-!
# Names

Every node gets an identifier made from its layer name.  `Naming.identifier` makes a name
an identifier, and `Registry.register` makes identifiers unique: the first gets the
name, later ones the name with the least free number from two on.
-/

namespace Handoff

/-- The identifiers that are taken. -/
structure Registry where
  taken : List String
deriving DecidableEq, Repr

namespace Naming

/-- Whether a character may stand in an identifier. -/
def isPlain (c : Char) : Bool :=
  c.isAlpha || c.isDigit

/-- A text in which every other character became a space. -/
def spaced (cs : List Char) : List Char :=
  cs.map fun c => if isPlain c then c else ' '

/-- A layer name in snake case; the fallback stands in for a name of which nothing is
left, and in front of one that begins with a digit. -/
def identifier (raw fallback : String) : String :=
  let name := Text.snake (String.ofList (spaced raw.toList))
  match name.toList with
  | [] => fallback
  | c :: _ => if c.isDigit then fallback ++ "_" ++ name else name

/-- The first of `base2`, `base3`, … that passes; `tries` of them are tried. -/
def firstFree (candidate : Nat → String) (free : String → Bool) :
    (tries number : Nat) → String
  | 0, number => candidate number
  | tries + 1, number =>
    if free (candidate number) then candidate number
    else firstFree candidate free tries (number + 1)

end Naming

namespace Registry

/-- No identifier is taken. -/
def empty : Registry := ⟨[]⟩

/-- Whether an identifier is free. -/
def free (r : Registry) (name : String) : Bool :=
  !r.taken.contains name

/-- The identifier that a base gets: itself, or the least number after an underscore that
makes it free. -/
def pick (r : Registry) (base : String) : String :=
  if r.free base then base
  else
    Naming.firstFree (fun n => base ++ "_" ++ toString n) r.free r.taken.length 2

/-- Takes an identifier for a name. -/
def register (r : Registry) (raw fallback : String) : String × Registry :=
  let name := r.pick (Naming.identifier raw fallback)
  (name, ⟨name :: r.taken⟩)

end Registry

end Handoff
