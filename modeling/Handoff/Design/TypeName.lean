import Handoff.Design.Node
import Handoff.Naming

/-!
# Type names

Where each root of a design becomes a type, its name is the unique name of the root in
Pascal case.  Two unique names may have one Pascal case, so a name that is taken gets
the least number from two on that makes it free.
-/

namespace Handoff.Design

/-- The first of `base`, `base2`, `base3`, … that is not taken. -/
def freshTypeName (taken : List String) (base : String) : String :=
  if taken.contains base then
    Naming.firstFree (fun n => base ++ toString n) (fun name => !taken.contains name)
      taken.length 2
  else base

/-- The type names for unique names in turn, given those that are taken. -/
def typeNamesFrom (taken : List String) : List String → List String
  | [] => []
  | name :: rest =>
    let fresh := freshTypeName taken (Text.pascal name)
    fresh :: typeNamesFrom (fresh :: taken) rest

/-- The type names of the roots of a forest. -/
def typeNames (forest : List Node) : List String :=
  typeNamesFrom [] (forest.map (·.box.uniqueName))

end Handoff.Design
