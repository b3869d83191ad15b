import Handoff.Json.Reader
import Handoff.Template.Basic
import Handoff.Text.Lines

/-!
# Reading templates

A tag stands between double braces.  It names a value, calls a helper, or opens (`#`),
divides (`else`) or closes (`/`) a block.  A block tag that is alone on its line takes the
whole line with it.

Reading goes through two views of the text: `Source`, the tags with the text around them,
and `Piece`, the same without the lines that block tags take.  `assemble` then nests the
pieces, and fails on a block that is not closed or closed by another name.
-/

namespace Handoff.Template

/-! ## Tags -/

/-- A tag without its braces. -/
inductive Tag where
  | value (operand : Operand)
  | call (helper : String) (operands : List Operand)
  | start (name : String) (operands : List Operand)
  | otherwise
  | finish (name : String)

/-- Whether a tag belongs to a block. -/
def Tag.isBlock : Tag → Bool
  | start _ _ | otherwise | finish _ => true
  | value _ | call _ _ => false

/-- A word of a tag: a name or a string. -/
inductive Word where
  | name (cs : List Char)
  | string (s : String)

/-- The characters of a name, with the dots between the names of a path. -/
def isNameChar (c : Char) : Bool :=
  c.isAlphanum || c == '_' || c == '-' || c == '.' || c == '$' || 0x80 ≤ c.toNat

/-- The words up to the end of a tag. -/
def words : (fuel : Nat) → Json.Step (List Word)
  | 0, _ => none
  | fuel + 1, cs =>
    match cs.dropWhile Text.isBlank with
    | '\x7d' :: '\x7d' :: rest => some ([], rest)
    | '"' :: rest => do
      let (s, rest) ← Json.string (rest.length + 1) rest
      let (more, rest) ← words fuel rest
      return (.string s :: more, rest)
    | cs =>
      match cs.takeWhile isNameChar with
      | [] => none
      | name => do
        let (more, rest) ← words fuel (cs.dropWhile isNameChar)
        return (.name name :: more, rest)

/-- The names on the way to a value; `this` at the front stands for the value itself. -/
def pathNames (cs : List Char) : List String :=
  match (Text.splitChars '.' cs).filter (!·.isEmpty) with
  | ['t', 'h', 'i', 's'] :: names => names.map String.ofList
  | names => names.map String.ofList

/-- The operand that a word stands for. -/
def Word.operand : Word → Operand
  | string s => .value (.str s)
  | name cs =>
    match Json.read? (String.ofList cs) with
    | some json => .value json
    | none => .path (pathNames cs)

/-- The tag of the words after an optional `#` or `/`. -/
def Tag.ofWords? (mark : Option Char) : List Word → Option Tag
  | [] => none
  | .string _ :: _ => none
  | .name cs :: rest =>
    let name := String.ofList cs
    let operands := rest.map Word.operand
    match mark, rest with
    | some '#', _ => some (start name operands)
    | some _, [] => some (finish name)
    | some _, _ => none
    | none, [] =>
      if name = "else" then some otherwise
      else if (Helper.ofName? name).isSome then some (call name [])
      else some (value (.path (pathNames cs)))
    | none, _ => some (call name operands)

/-- A tag after its opening braces. -/
def tag? : Json.Step Tag := fun cs =>
  match cs.dropWhile Text.isBlank with
  | '#' :: rest => do
    let (ws, rest) ← words (rest.length + 1) rest
    return (← Tag.ofWords? (some '#') ws, rest)
  | '/' :: rest => do
    let (ws, rest) ← words (rest.length + 1) rest
    return (← Tag.ofWords? (some '/') ws, rest)
  | cs => do
    let (ws, rest) ← words (cs.length + 1) cs
    return (← Tag.ofWords? none ws, rest)

/-! ## Text and tags -/

/-- A template as the text before its first tag and every tag with the text after it. -/
structure Source where
  lead : List Char
  tags : List (Tag × List Char)

/-- Puts a character in front. -/
def Source.cons (c : Char) (s : Source) : Source :=
  { s with lead := c :: s.lead }

/-- The tags of a text. -/
def Source.read? : (fuel : Nat) → List Char → Option Source
  | 0, _ => none
  | _ + 1, [] => some ⟨[], []⟩
  | fuel + 1, '\x7b' :: '\x7b' :: rest => do
    let (tag, rest) ← tag? rest
    let source ← Source.read? fuel rest
    return ⟨[], (tag, source.lead) :: source.tags⟩
  | fuel + 1, c :: rest => (Source.read? fuel rest).map (Source.cons c)

/-! ## Lines of block tags -/

/-- Text or a tag. -/
inductive Piece where
  | text (content : String)
  | tag (t : Tag)

/-- A blank within a line. -/
def isMargin (c : Char) : Bool :=
  c == ' ' || c == '\t'

/-- A character that ends a line. -/
def isLineEnd (c : Char) : Bool :=
  c == '\n' || c == '\r'

/-- Whether a text ends in an empty line; `first` tells that nothing stands before it. -/
def endsInEmptyLine (first : Bool) (cs : List Char) : Bool :=
  match cs.reverse.dropWhile isMargin with
  | [] => first
  | c :: _ => isLineEnd c

/-- Whether a text begins with an empty line; `last` tells that nothing stands after
it. -/
def beginsWithEmptyLine (last : Bool) (cs : List Char) : Bool :=
  match cs.dropWhile isMargin with
  | [] => last && cs.isEmpty
  | c :: _ => isLineEnd c

/-- A text without the blanks that end it. -/
def dropMargin (cs : List Char) : List Char :=
  (cs.reverse.dropWhile isMargin).reverse

/-- A text without the rest of the line that it begins with. -/
def dropLineEnd (cs : List Char) : List Char :=
  match cs.dropWhile isMargin with
  | '\r' :: '\n' :: rest => rest
  | '\n' :: rest => rest
  | rest => rest

/-- The pieces of a template from the text `before` on.  `first` tells that nothing stands
before that text, and `lineTaken` that the tag before it takes its line. -/
def pieces (first lineTaken : Bool) (before : List Char) :
    List (Tag × List Char) → List Piece
  | [] => [.text (String.ofList (if lineTaken then dropLineEnd before else before))]
  | (tag, after) :: rest =>
    let alone :=
      tag.isBlock && endsInEmptyLine first before && beginsWithEmptyLine rest.isEmpty after
    let text := if lineTaken then dropLineEnd before else before
    .text (String.ofList (if alone then dropMargin text else text)) ::
      .tag tag :: pieces false alone after rest

/-! ## Nesting -/

/-- A block whose end is still to come. -/
structure Unclosed where
  name : String
  operands : List Operand
  /-- The parts before the block, last first. -/
  before : List Part
  /-- The body, once the block was divided. -/
  body? : Option (List Part)

/-- The block with the parts between its last tag and its end. -/
def Unclosed.close (u : Unclosed) (parts : List Part) : Part :=
  match u.body? with
  | none => .block u.name u.operands parts []
  | some body => .block u.name u.operands body parts

/-- Nests the pieces: `done` holds the parts since the last block tag, last first, and
`unclosed` the blocks around them, innermost first. -/
def assemble (done : List Part) (unclosed : List Unclosed) : List Piece → Option (List Part)
  | [] => if unclosed.isEmpty then some done.reverse else none
  | .text content :: rest => assemble (.text content :: done) unclosed rest
  | .tag (.value operand) :: rest => assemble (.value operand :: done) unclosed rest
  | .tag (.call helper operands) :: rest =>
    assemble (.call helper operands :: done) unclosed rest
  | .tag (.start name operands) :: rest =>
    assemble [] (⟨name, operands, done, none⟩ :: unclosed) rest
  | .tag .otherwise :: rest =>
    match unclosed with
    | ⟨name, operands, before, none⟩ :: outer =>
      assemble [] (⟨name, operands, before, some done.reverse⟩ :: outer) rest
    | _ => none
  | .tag (.finish name) :: rest =>
    match unclosed with
    | u :: outer =>
      if u.name = name then assemble (u.close done.reverse :: u.before) outer rest else none
    | [] => none

/-- The parts of a template, if it is well formed. -/
def read? (template : String) : Option (List Part) := do
  let source ← Source.read? (template.length + 1) template.toList
  assemble [] [] (pieces true false source.lead source.tags)

end Handoff.Template
