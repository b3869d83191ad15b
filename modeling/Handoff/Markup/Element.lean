import Handoff.Css.Declaration
import Handoff.Css.Node
import Handoff.Design.Node
import Handoff.Text.Escape
import Handoff.Text.Lines

/-!
# Markup

Markup is built as a tree of elements and turned into text in one place.  An element is
an image, a text or a box of further elements, each with its attributes and perhaps a
comment that names its layer; the `Dialect` decides how all of that is spelled.

`visits` lists the nodes of a design that become elements, each with its parent, in the
order of their elements.
-/

namespace Handoff.Markup

open Design (Node)

/-- The spelling of markup. -/
inductive Dialect where
  | html
  | jsx
deriving DecidableEq, Repr

/-- The dialect that the settings ask for. -/
def Dialect.ofSettings (s : Settings) : Dialect :=
  if s.jsx then .jsx else .html

/-! ## Attributes -/

/-- An attribute of an element. -/
inductive Attribute where
  /-- The address of an image. -/
  | source (url : String)
  /-- The name of the layer. -/
  | layer (name : String)
  | style (declarations : List Css.Declaration)
  | classes (names : List String)
deriving DecidableEq, Repr

/-- A property of a style object, its value in quotes. -/
def scriptProperty (d : Css.Declaration) : String :=
  Css.scriptName d.property ++ ": \"" ++ Text.styleString d.value ++ "\""

/-- The text of an attribute. -/
def Attribute.text (dialect : Dialect) : Attribute → String
  | source url => "src=\"" ++ url ++ "\""
  | layer name => "data-layer=\"" ++ Text.html name ++ "\""
  | style declarations =>
    match dialect with
    | .html => "style=\"" ++ "; ".intercalate (declarations.map (·.text)) ++ "\""
    | .jsx =>
      "style=\x7b\x7b" ++ ", ".intercalate (declarations.map scriptProperty) ++ "\x7d\x7d"
  | classes names =>
    (match dialect with
      | .html => "class"
      | .jsx => "className") ++ "=\"" ++ " ".intercalate names ++ "\""

/-! ## Elements -/

/-- An element; `comment` is the layer name to put in front of it. -/
inductive Element where
  | image (comment : Option String) (attributes : List Attribute)
  | text (comment : Option String) (attributes : List Attribute) (characters : String)
  | box (comment : Option String) (attributes : List Attribute) (children : List Element)

/-- A character of a text; a line feed is a break, and in JSX braces are quoted. -/
def textEscape (dialect : Dialect) (c : Char) : List Char :=
  match dialect, c with
  | .html, '\n' => ['<', 'b', 'r', '/', '>']
  | .jsx, '\n' => ['<', 'b', 'r', ' ', '/', '>']
  | .jsx, '\x7b' => ['\x7b', '\'', '\x7b', '\'', '\x7d']
  | .jsx, '\x7d' => ['\x7b', '\'', '\x7d', '\'', '\x7d']
  | _, c => Text.htmlEscape c

/-- The text between the tags of a text element. -/
def textContent (dialect : Dialect) (s : String) : String :=
  Text.escapeWith (textEscape dialect) s

/-- The spaces in front of a line. -/
def margin (depth : Nat) : String := Text.spaces (2 * depth)

/-- The comment that names a layer. -/
def comment (dialect : Dialect) (name : String) : String :=
  match dialect with
  | .html => "<!-- " ++ Text.commentSafe name ++ " -->"
  | .jsx => "\x7b/* " ++ Text.commentSafe name ++ " */\x7d"

/-- The line of the comment in front of an element, if it has one. -/
def commentLines (dialect : Dialect) (depth : Nat) (name : Option String) : List String :=
  name.toList.map fun name => margin depth ++ comment dialect name

/-- The attributes of an element as text. -/
def attributesText (dialect : Dialect) (attributes : List Attribute) : String :=
  " ".intercalate (attributes.map (·.text dialect))

/-- The opening tag of a box or text. -/
def openTag (dialect : Dialect) (attributes : List Attribute) : String :=
  if attributes.isEmpty then "<div>" else "<div " ++ attributesText dialect attributes ++ ">"

namespace Element

mutual

/-- The lines of an element at the given depth. -/
def lines (dialect : Dialect) (depth : Nat) : Element → List String
  | image name attributes =>
    commentLines dialect depth name ++
      [margin depth ++ "<img " ++ attributesText dialect attributes ++ " />"]
  | text name attributes characters =>
    commentLines dialect depth name ++
      [margin depth ++ openTag dialect attributes ++ textContent dialect characters ++ "</div>"]
  | box name attributes [] =>
    commentLines dialect depth name ++
      [margin depth ++ openTag dialect attributes ++ "</div>"]
  | box name attributes (child :: children) =>
    commentLines dialect depth name ++ [margin depth ++ openTag dialect attributes] ++
      listLines dialect (depth + 1) (child :: children) ++ [margin depth ++ "</div>"]

/-- The lines of elements one after another. -/
def listLines (dialect : Dialect) (depth : Nat) : List Element → List String
  | [] => []
  | e :: rest => e.lines dialect depth ++ listLines dialect depth rest

end

end Element

/-- The lines of a document.  JSX is one expression, so several elements are put into a
fragment. -/
def documentLines (dialect : Dialect) (elements : List Element) : List String :=
  if dialect = .jsx ∧ elements.length > 1 then
    ["<>"] ++ Element.listLines dialect 1 elements ++ ["</>"]
  else Element.listLines dialect 0 elements

/-- The text of a document. -/
def document (dialect : Dialect) (elements : List Element) : String :=
  "\n".intercalate (documentLines dialect elements)

/-! ## From designs -/

/-- What decides the attributes of a node: its parent and the node. -/
abbrev Attributes := Option Node → Node → List Attribute

/-- Whether a node becomes an element without elements in it. -/
def isLeaf (box : Design.Box) : Bool :=
  box.kind == .image || box.style.text.isSome

/-- The name to put in front of a node's element. -/
def commentOf (comments : Bool) (box : Design.Box) : Option String :=
  if comments then box.name else none

mutual

/-- The element of a node inside its parent. -/
def elementOf (attributes : Attributes) (comments : Bool) (parent : Option Node) :
    Node → Element
  | .mk box children =>
    let n := Node.mk box children
    let name := commentOf comments box
    let own := attributes parent n
    if box.kind = .image then .image name (.source box.placeholder :: own)
    else
      match box.characters? with
      | some characters => .text name own characters
      | none => .box name own (elementsOf attributes comments (some n) children)

/-- The elements of nodes inside their parent. -/
def elementsOf (attributes : Attributes) (comments : Bool) (parent : Option Node) :
    List Node → List Element
  | [] => []
  | n :: rest =>
    elementOf attributes comments parent n :: elementsOf attributes comments parent rest

end

mutual

/-- A node with its parent, then those below it that become elements. -/
def visitsOf (parent : Option Node) : Node → List (Option Node × Node)
  | .mk box children =>
    let n := Node.mk box children
    (parent, n) :: if isLeaf box then [] else visitsOfList (some n) children

/-- The nodes of a list that become elements, each with its parent. -/
def visitsOfList (parent : Option Node) : List Node → List (Option Node × Node)
  | [] => []
  | n :: rest => visitsOf parent n ++ visitsOfList parent rest

end

/-- The nodes of a forest that become elements, each with its parent. -/
def visits (forest : List Node) : List (Option Node × Node) :=
  visitsOfList none forest

/-- The warnings of a forest: for each element the type of its node if that is
unsupported, then the given omissions. -/
def warnings (omissions : Node → List Reason) (forest : List Node) : List Warning :=
  (visits forest).flatMap fun (_, n) =>
    Warning.about n.box.id (n.box.unsupported ++ omissions n)

end Handoff.Markup
