import Handoff.Json.Basic

/-!
# Templates

A template is text with places where values of some data go.  `Part` is the tree of a
template: text, a value, the result of a helper, or a block around further parts.  Blocks
and helpers are kept by name; what a name does is decided when the template is rendered.
-/

namespace Handoff.Template

/-- What a tag reads: a value of the data, by the names on the way to it, or a value
written in the tag. -/
inductive Operand where
  | path (names : List String)
  | value (json : Json)

/-- A part of a template. -/
inductive Part where
  /-- Text that stays as it is. -/
  | text (content : String)
  /-- A value of the data. -/
  | value (operand : Operand)
  /-- The result of a helper. -/
  | call (helper : String) (operands : List Operand)
  /-- Parts that a block repeats or chooses between. -/
  | block (name : String) (operands : List Operand) (body otherwise : List Part)

/-- The functions that a tag may call. -/
inductive Helper where
  /-- A name in Pascal case. -/
  | pascalCase
  /-- A name in camel case. -/
  | camelCase
  /-- A text with every line that is not blank moved to the right. -/
  | indent
deriving DecidableEq, Repr

/-- The helper of a name. -/
def Helper.ofName? : String → Option Helper
  | "pascal_case" => some pascalCase
  | "camel_case" => some camelCase
  | "indent" => some indent
  | _ => none

/-- The blocks that a template may use. -/
inductive Block where
  /-- The body for every item of a list or field of an object. -/
  | each
  /-- The body if a value counts as true. -/
  | cond
deriving DecidableEq, Repr

/-- The block of a name. -/
def Block.ofName? : String → Option Block
  | "each" => some each
  | "if" => some cond
  | _ => none

end Handoff.Template
