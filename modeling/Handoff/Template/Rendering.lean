import Handoff.Decimal.Binary
import Handoff.Json.Decode
import Handoff.Json.Printer
import Handoff.Template.Reading
import Handoff.Text.Lines
import Handoff.Text.Words

/-!
# Rendering templates

`renderParts?` puts the values of some data into the parts of a template.  Text is written
without any escaping, a value that is missing is empty text, and a helper or block that
is not known makes the whole template fail.

`Library` holds templates by name; a template registered again replaces the first.
-/

namespace Handoff.Template

/-! ## Values -/

/-- The value inside `json` under one name; the items of an array have their positions
as names. -/
def member? (json : Json) (name : String) : Option Json :=
  match json with
  | .obj fields => fields.lookup name
  | .arr items => name.toNat?.bind (items[·]?)
  | _ => none

/-- The value that an operand stands for in the data of a scope. -/
def Operand.value? (scope : Json) : Operand → Option Json
  | path names => names.foldlM member? scope
  | value json => some json

/-- The text of an operand that is a string, else no text. -/
def Operand.text (scope : Json) (operand : Operand) : String :=
  ((operand.value? scope).bind Json.text?).getD ""

/-- Whether a number is neither zero nor too small to have full precision. -/
def isNormal (x : Float) : Bool :=
  Float.abs x ≥ Float.ofBits 0x0010000000000000

/-- Whether a value counts as true. -/
def isTruthy : Json → Bool
  | .null => false
  | .bool b => b
  | .str s => !s.isEmpty
  | .arr items => !items.isEmpty
  | .obj fields => !fields.isEmpty
  | number => ((Json.double? number).map isNormal).getD false

mutual

/-- A value as it is written into a text. -/
def valueText : Json → String
  | .null => ""
  | .str s => s
  | .arr items => "[" ++ itemsText items ++ "]"
  | .obj _ => "[object]"
  | scalar => scalar.compact

/-- The items of an array, separated by commas. -/
def itemsText : List Json → String
  | [] => ""
  | [item] => valueText item
  | item :: rest => valueText item ++ ", " ++ itemsText rest

end

/-- What a block repeats over: the items of an array, or the values of an object in the
order of their names. -/
def members : Json → List Json
  | .arr items => items
  | .obj fields => (fields.mergeSort fun p q => decide (p.1 ≤ q.1)).map (·.2)
  | _ => []

/-! ## Parts -/

/-- The number of spaces that `indent` puts in if it is not told. -/
def defaultIndent : Nat := 4

/-- The result of a helper. -/
def Helper.apply (scope : Json) (operands : List Operand) (helper : Helper) : String :=
  let text := (operands[0]?.map (Operand.text scope)).getD ""
  match helper with
  | pascalCase => Text.pascal text
  | camelCase => Text.camel text
  | indent =>
    let width := operands[1]?.bind fun o =>
      (o.value? scope).bind (Json.natUpTo? (UInt64.size - 1))
    Text.indent (width.getD defaultIndent) text

mutual

/-- The text of a part in a scope. -/
def renderPart? : Part → Json → Option String
  | .text content, _ => some content
  | .value operand, scope => some ((operand.value? scope).elim "" valueText)
  | .call helper operands, scope => (Helper.ofName? helper).map (Helper.apply scope operands)
  | .block name operands body otherwise, scope => do
    let block ← Block.ofName? name
    let operand ← operands.head?
    let value := (operand.value? scope).getD .null
    match block with
    | .each =>
      match members value with
      | [] => renderParts? otherwise scope
      | values => (values.mapM fun inner => renderParts? body inner).map String.join
    | .cond =>
      if isTruthy value then renderParts? body scope else renderParts? otherwise scope

/-- The texts of parts one after another. -/
def renderParts? : List Part → Json → Option String
  | [], _ => some ""
  | part :: rest, scope => do
    let text ← renderPart? part scope
    let more ← renderParts? rest scope
    return text ++ more

end

/-- A template with data put in, unless it is malformed or fails. -/
def render? (template : String) (data : Json) : Option String := do
  renderParts? (← read? template) data

/-! ## Libraries -/

/-- Templates by name. -/
structure Library where
  templates : List (String × List Part)

namespace Library

/-- No templates. -/
def empty : Library := ⟨[]⟩

/-- Adds a template, if it is well formed. -/
def register? (l : Library) (name template : String) : Option Library :=
  (read? template).map fun parts => ⟨(name, parts) :: l.templates⟩

/-- The template of a name with data put in. -/
def render? (l : Library) (name : String) (data : Json) : Option String := do
  renderParts? (← l.templates.lookup name) data

end Library

end Handoff.Template
