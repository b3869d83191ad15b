import Handoff.Proofs.Markup.Comments
import Handoff.Proofs.Markup.Structure

/-!
JSX as it is read.

`Jsx.IsNode` says of a text that it is one node of JSX from its first character to its last: an
element or a fragment, whose tags fit and whose contents are closed in themselves.  What an
attribute is is left open.  It may be any text that is written as one, or what script makes of it
(`Jsx.IsAttribute`); the nesting is the same.

A comment is script in braces, and may stand in a node but is none (`IsNode.head?_eq`).

The main statements are on documents: several elements are one node whatever else is said of them,
and a single element is one unless a comment stands in front of it (`isNode_document_iff`).
-/

namespace Handoff.Markup

open Design (Box Node)
open Text (Apart)

/-! ## Grammar -/

namespace Jsx

/-- The name of an element or an attribute. -/
def IsName (cs : List Char) : Prop :=
  cs ≠ [] ∧ ∀ c ∈ cs, c.isAlphanum = true ∨ c = '-'

/-- What stands between the quotes of a string. -/
inductive IsQuoted (quote : Char) : List Char → Prop
  | nil : IsQuoted quote []
  | plain {c : Char} {cs : List Char} :
    c ∉ [quote, '\\', '\n', '\r'] → IsQuoted quote cs → IsQuoted quote (c :: cs)
  | escaped (c : Char) {cs : List Char} : IsQuoted quote cs → IsQuoted quote ('\\' :: c :: cs)

/-- Script in which all strings, comments and braces are closed. -/
inductive IsCode : List Char → Prop
  | nil : IsCode []
  | plain {c : Char} : c ∉ ['"', '\'', '`', '/', '\\', '\x7b', '\x7d'] → IsCode [c]
  | string {quote : Char} {cs : List Char} :
    quote ∈ ['"', '\''] → IsQuoted quote cs → IsCode (quote :: (cs ++ [quote]))
  | comment {cs : List Char} :
    Apart '*' '/' (cs ++ ['*']) → IsCode ('/' :: '*' :: (cs ++ ['*', '/']))
  | block {cs : List Char} : IsCode cs → IsCode ('\x7b' :: (cs ++ ['\x7d']))
  | append {cs ds : List Char} : IsCode cs → IsCode ds → IsCode (cs ++ ds)

/-- A name with a value in quotes, or with script in braces. -/
inductive IsAttribute : List Char → Prop
  | quoted {name value : List Char} :
    IsName name → '"' ∉ value → IsAttribute (name ++ '=' :: '"' :: (value ++ ['"']))
  | code {name cs : List Char} :
    IsName name → IsCode cs → IsAttribute (name ++ '=' :: '\x7b' :: (cs ++ ['\x7d']))

/-- The attributes of a tag, each with a blank in front. -/
def attributeList (attributes : List (List Char)) : List Char :=
  attributes.flatMap (' ' :: ·)

mutual

/-- One node, and nothing beside it. -/
inductive IsNode (isAttribute : List Char → Prop) : List Char → Prop
  | single {name : List Char} {attributes : List (List Char)} :
    IsName name → (∀ a ∈ attributes, isAttribute a) →
      IsNode isAttribute ('<' :: (name ++ attributeList attributes ++ [' ', '/', '>']))
  | element {name body : List Char} {attributes : List (List Char)} :
    IsName name → (∀ a ∈ attributes, isAttribute a) → IsContent isAttribute body →
      IsNode isAttribute
        ('<' :: (name ++ attributeList attributes ++ '>' :: (body ++ '<' :: '/' :: name ++ ['>'])))
  | fragment {body : List Char} :
    IsContent isAttribute body → IsNode isAttribute ('<' :: '>' :: (body ++ ['<', '/', '>']))

/-- What may stand in a node: text, script in braces and further nodes. -/
inductive IsContent (isAttribute : List Char → Prop) : List Char → Prop
  | nil : IsContent isAttribute []
  | text {c : Char} : c ∉ ['<', '>', '\x7b', '\x7d'] → IsContent isAttribute [c]
  | code {cs : List Char} : IsCode cs → IsContent isAttribute ('\x7b' :: (cs ++ ['\x7d']))
  | node {cs : List Char} : IsNode isAttribute cs → IsContent isAttribute cs
  | append {cs ds : List Char} :
    IsContent isAttribute cs → IsContent isAttribute ds → IsContent isAttribute (cs ++ ds)

end

variable {isAttribute : List Char → Prop} {cs : List Char}

/-- A node begins with a tag. -/
theorem IsNode.head?_eq (node : IsNode isAttribute cs) : cs.head? = some '<' := by
  cases node <;> rfl

theorem IsContent.flatMap {α : Type} {f : α → List Char} {items : List α}
    (each : ∀ a ∈ items, IsContent isAttribute (f a)) : IsContent isAttribute (items.flatMap f) := by
  induction items with
  | nil => exact .nil
  | cons a items ih =>
      rw [List.flatMap_cons]
      exact .append (each a List.mem_cons_self) (ih fun b member =>
        each b (List.mem_cons_of_mem _ member))

theorem IsContent.ofText (plain : ∀ c ∈ cs, c ∉ ['<', '>', '\x7b', '\x7d']) :
    IsContent isAttribute cs := by
  rw [← List.flatMap_singleton' cs]
  exact .flatMap fun c member => .text (plain c member)

end Jsx

open Jsx (IsName IsNode IsContent attributeList)

/-! ## Lines -/

/-- Lines with their ends. -/
def ended (lines : List String) : List Char :=
  lines.flatMap fun line => line.toList ++ ['\n']

@[simp] theorem ended_append (first later : List String) :
    ended (first ++ later) = ended first ++ ended later :=
  List.flatMap_append

@[simp] theorem ended_singleton (line : String) : ended [line] = line.toList ++ ['\n'] :=
  List.flatMap_singleton _ _

/-- Lines that are joined have the ends of all but the last. -/
theorem ended_eq {lines : List String} (present : lines ≠ []) :
    ended lines = ("\n".intercalate lines).toList ++ ['\n'] := by
  induction lines with
  | nil => exact absurd rfl present
  | cons first rest ih =>
      cases rest with
      | nil => rw [ended_singleton, String.intercalate_singleton]
      | cons next rest =>
          have feed : "\n".toList = ['\n'] := rfl
          rw [← List.singleton_append, ended_append, ended_singleton, ih (List.cons_ne_nil _ _),
            List.singleton_append, String.intercalate_cons_cons, String.toList_append,
            String.toList_append, feed, List.append_assoc, List.append_assoc, List.append_assoc]

/-! ## Pieces of markup -/

section

variable {isAttribute : List Char → Prop}

theorem toList_attributesText (dialect : Dialect) {attributes : List Attribute}
    (present : attributes ≠ []) :
    ' ' :: (attributesText dialect attributes).toList =
      attributeList (attributes.map fun a => (a.text dialect).toList) := by
  unfold attributesText attributeList
  induction attributes with
  | nil => exact absurd rfl present
  | cons a rest ih =>
      cases rest with
      | nil => simp
      | cons b rest =>
          have blank : " ".toList = [' '] := rfl
          have later := ih (List.cons_ne_nil b rest)
          rw [List.map_cons] at later
          rw [List.map_cons, List.map_cons, List.map_cons, List.flatMap_cons, ← later,
            String.intercalate_cons_cons, String.toList_append, String.toList_append, blank]
          simp only [List.cons_append, List.append_assoc, List.nil_append]

theorem toList_openTag_eq (dialect : Dialect) (attributes : List Attribute) :
    (openTag dialect attributes).toList = '<' :: ("div".toList ++
      attributeList (attributes.map fun a => (a.text dialect).toList) ++ ['>']) := by
  unfold openTag
  cases attributes with
  | nil =>
      rw [List.isEmpty_nil, if_pos rfl]
      rfl
  | cons a rest =>
      rw [← toList_attributesText dialect (List.cons_ne_nil a rest), List.isEmpty_cons,
        if_neg Bool.false_ne_true, String.toList_append, String.toList_append]
      rfl

/-- What stands between the tags of a box or text makes an element with them. -/
theorem isNode_div {attributes : List Attribute}
    (read : ∀ a ∈ attributes, isAttribute (a.text .jsx).toList) {body : List Char}
    (content : IsContent isAttribute body) :
    IsNode isAttribute ((openTag .jsx attributes).toList ++ body ++ "</div>".toList) := by
  have name : IsName "div".toList := by simp [IsName]
  have node := IsNode.element name (List.forall_mem_map.mpr read) content
  rw [toList_openTag_eq]
  have closing : "</div>".toList = '<' :: '/' :: "div".toList ++ ['>'] := rfl
  rw [closing]
  simpa only [List.cons_append, List.append_assoc, List.nil_append] using node

theorem isNode_img {attributes : List Attribute} (present : attributes ≠ [])
    (read : ∀ a ∈ attributes, isAttribute (a.text .jsx).toList) :
    IsNode isAttribute ("<img " ++ attributesText .jsx attributes ++ " />").toList := by
  have name : IsName "img".toList := by simp [IsName]
  have node := IsNode.single name (List.forall_mem_map.mpr read)
  rw [← toList_attributesText .jsx present] at node
  rw [String.toList_append, String.toList_append]
  exact node

theorem isContent_margin (depth : Nat) : IsContent isAttribute (margin depth).toList := by
  refine .ofText fun c member => ?_
  rw [margin, Text.spaces, String.toList_ofList] at member
  rw [List.eq_of_mem_replicate member]
  decide

/-- A comment is closed by its own mark. -/
theorem isContent_comment (name : String) : IsContent isAttribute (comment .jsx name).toList := by
  have inside := apart_spaced '*' (by simp) (Text.apart_close_commentSafe name)
  have code := @Jsx.IsCode.comment (' ' :: ((Text.commentSafe name).toList ++ [' ']))
    (by simpa using inside)
  rw [toList_comment_jsx]
  simpa using @IsContent.code isAttribute _ code

theorem isContent_commentLines (depth : Nat) (name : Option String) :
    IsContent isAttribute (ended (commentLines .jsx depth name)) := by
  cases name with
  | none => exact .nil
  | some name =>
      rw [commentLines, Option.toList_some, List.map_singleton, ended_singleton,
        String.toList_append]
      exact .append (.append (isContent_margin depth) (isContent_comment name)) (.text (by simp))

/-- What becomes of a character of a text is closed in itself. -/
theorem isContent_textEscape (c : Char) : IsContent isAttribute (textEscape .jsx c) := by
  have brace (b : Char) (apart : b ∉ ['\'', '\\', '\n', '\r']) :
      IsContent isAttribute ['\x7b', '\'', b, '\'', '\x7d'] :=
    .code (.string (by simp) (.plain apart .nil))
  unfold textEscape
  split
  · contradiction
  · exact .node (@IsNode.single isAttribute "br".toList [] (by simp [IsName]) nofun)
  · exact brace '\x7b' (by simp)
  · exact brace '\x7d' (by simp)
  · rename_i opening closing
    unfold Text.htmlEscape
    split
    · exact .ofText (by simp)
    · exact .ofText (by simp)
    · exact .ofText (by simp)
    · exact .ofText (by simp)
    · rename_i lt gt _
      refine .text ?_
      simp only [List.mem_cons, List.not_mem_nil, or_false, not_or]
      exact ⟨lt, gt, opening rfl, closing rfl⟩

theorem isContent_textContent (s : String) :
    IsContent isAttribute (textContent .jsx s).toList := by
  rw [textContent, Text.escapeWith, String.toList_ofList]
  exact .flatMap fun c _ => isContent_textEscape c

end

/-! ## Elements -/

section

variable {isAttribute : List Char → Prop} {attributes : Attributes} {comments : Bool}

/-- The attributes of the elements of a list are read as such. -/
def AttributesRead (isAttribute : List Char → Prop) (attributes : Attributes)
    (parent : Option Node) (nodes : List Node) : Prop :=
  ∀ visit ∈ visitsOfList parent nodes, ∀ a ∈ attributesOf attributes visit.1 visit.2,
    isAttribute (a.text .jsx).toList

/-- The lines of an element are one node behind its margin, and a comment before that. -/
def IsElement (isAttribute : List Char → Prop) (depth : Nat) (name : Option String)
    (lines : List String) : Prop :=
  ∃ cs, IsNode isAttribute cs ∧ ended lines =
    ended (commentLines .jsx depth name) ++ ((margin depth).toList ++ (cs ++ ['\n']))

theorem IsElement.isContent {depth : Nat} {name : Option String} {lines : List String}
    (element : IsElement isAttribute depth name lines) : IsContent isAttribute (ended lines) := by
  obtain ⟨cs, node, same⟩ := element
  rw [same]
  refine .append (isContent_commentLines depth name) (.append (isContent_margin depth) ?_)
  exact .append (.node node) (.text (by simp))

theorem isContent_listLines {depth : Nat} {parent : Option Node} {nodes : List Node}
    (each : ∀ n ∈ nodes, IsElement isAttribute depth (commentOf comments n.box)
      ((elementOf attributes comments parent n).lines .jsx depth)) :
    IsContent isAttribute
      (ended (Element.listLines .jsx depth (elementsOf attributes comments parent nodes))) := by
  induction nodes with
  | nil => exact .nil
  | cons n rest ih =>
      rw [elementsOf, Element.listLines, ended_append]
      exact .append (each n List.mem_cons_self).isContent
        (ih fun m member => each m (List.mem_cons_of_mem n member))

/-- The lines of a box are one node if what is in it is closed in itself. -/
theorem isElement_box {depth : Nat} {name : Option String} {own : List Attribute}
    (read : ∀ a ∈ own, isAttribute (a.text .jsx).toList) {elements : List Element}
    (content : IsContent isAttribute (ended (Element.listLines .jsx (depth + 1) elements))) :
    IsElement isAttribute depth name ((Element.box name own elements).lines .jsx depth) := by
  cases elements with
  | nil =>
      refine ⟨_, isNode_div read .nil, ?_⟩
      rw [Element.lines, ended_append, ended_singleton, String.toList_append, String.toList_append,
        List.append_nil]
      simp only [List.append_assoc]
  | cons first rest =>
      -- Between the tags stand the end of the first line, the lines inside and a margin.
      have inside : IsContent isAttribute ('\n' ::
          (ended (Element.listLines .jsx (depth + 1) (first :: rest)) ++
            (margin depth).toList)) :=
        .append (.text (by simp)) (.append content (isContent_margin depth))
      refine ⟨_, isNode_div read inside, ?_⟩
      rw [Element.lines, ended_append, ended_append, ended_append, ended_singleton,
        ended_singleton, String.toList_append, String.toList_append]
      simp only [List.append_assoc, List.cons_append, List.nil_append]

theorem isElement_elementOf (forest : List Node) : ∀ (depth : Nat) (parent : Option Node),
    AttributesRead isAttribute attributes parent forest → ∀ n ∈ forest,
      IsElement isAttribute depth (commentOf comments n.box)
        ((elementOf attributes comments parent n).lines .jsx depth) := by
  induction forest using Node.forestInduction with
  | nil => exact fun _ _ _ n member => nomatch member
  | cons box children rest below after =>
      intro depth parent read n member
      rw [AttributesRead, visitsOfList, List.forall_mem_append] at read
      obtain ⟨first, later⟩ := read
      rcases List.mem_cons.mp member with rfl | among
      · rw [visitsOf, List.forall_mem_cons] at first
        obtain ⟨own, inner⟩ := first
        rw [attributesOf] at own
        rw [elementOf]
        by_cases image : box.kind = .image
        · rw [show (Node.mk box children).box.kind = .image from image, if_pos rfl] at own
          refine ⟨_, isNode_img (List.cons_ne_nil _ _) own, ?_⟩
          simp only [image, if_true, Element.lines, ended_append, ended_singleton,
            String.toList_append, List.append_assoc]
          rfl
        · rw [if_neg (show (Node.mk box children).box.kind ≠ .image from image)] at own
          simp only [image, if_false]
          cases characters : box.characters? with
          | some text =>
              refine ⟨_, isNode_div own (isContent_textContent text), ?_⟩
              simp only [Element.lines, ended_append, ended_singleton, String.toList_append,
                List.append_assoc]
              rfl
          | none =>
              have branch : isLeaf box = false := by
                rw [isLeaf, beq_eq_false_iff_ne.mpr image]
                simpa [Box.characters?] using characters
              rw [branch, if_neg Bool.false_ne_true] at inner
              exact isElement_box own (isContent_listLines (below (depth + 1) _ inner))
      · exact after depth parent later n among

/-! ## Documents -/

/-- Several elements are put into a fragment, which is one node. -/
theorem isNode_document_fragment {forest : List Node} (several : forest.length > 1)
    (read : AttributesRead isAttribute attributes none forest) :
    IsNode isAttribute (document .jsx (elementsOf attributes comments none forest)).toList := by
  have content := isContent_listLines
    (@isElement_elementOf isAttribute attributes comments forest 1 none read)
  have wrapped := @ended_eq (documentLines .jsx
    (elementsOf attributes comments none forest)) (by simp [documentLines, length_elementsOf, several])
  rw [documentLines, length_elementsOf, if_pos ⟨rfl, several⟩, ended_append, ended_append,
    ended_singleton, ended_singleton] at wrapped
  have same : (document .jsx (elementsOf attributes comments none forest)).toList =
      '<' :: '>' :: (('\n' ::
        ended (Element.listLines .jsx 1 (elementsOf attributes comments none forest))) ++
          ['<', '/', '>']) := by
    refine (List.append_left_inj ['\n']).mp ?_
    rw [document, documentLines, length_elementsOf, if_pos ⟨rfl, several⟩, ← wrapped]
    simp
  rw [same]
  exact .fragment (.append (.text (by simp)) content)

/-- The document of a single node is its comment, if it has one, and one node. -/
theorem exists_isNode_document {n : Node}
    (read : AttributesRead isAttribute attributes none [n]) : ∃ cs, IsNode isAttribute cs ∧
      (document .jsx (elementsOf attributes comments none [n])).toList =
        ended (commentLines .jsx 0 (commentOf comments n.box)) ++ cs := by
  obtain ⟨cs, node, same⟩ := @isElement_elementOf isAttribute attributes comments [n] 0 none
    read n (List.mem_singleton_self n)
  have lines : documentLines .jsx (elementsOf attributes comments none [n]) =
      (elementOf attributes comments none n).lines .jsx 0 := by
    rw [documentLines, length_elementsOf, if_neg (by simp), elementsOf, elementsOf,
      Element.listLines, Element.listLines, List.append_nil]
  refine ⟨cs, node, (List.append_left_inj ['\n']).mp ?_⟩
  have present : (elementOf attributes comments none n).lines .jsx 0 ≠ [] := by
    intro none
    rw [none] at same
    simp [ended] at same
  rw [document, lines, ← ended_eq present, same, List.append_assoc]
  rfl

/-- A document is one node unless it is a single node with a comment. -/
theorem isNode_document_iff {forest : List Node} (present : forest ≠ [])
    (read : AttributesRead isAttribute attributes none forest) :
    IsNode isAttribute (document .jsx (elementsOf attributes comments none forest)).toList ↔
      ¬∃ n name, forest = [n] ∧ commentOf comments n.box = some name := by
  rcases forest with _ | ⟨n, _ | ⟨m, rest⟩⟩
  · exact absurd rfl present
  · obtain ⟨cs, node, same⟩ := @exists_isNode_document isAttribute attributes comments n read
    rw [same]
    cases comment : commentOf comments n.box with
    | none =>
        refine iff_of_true node ?_
        rintro ⟨only, name, single, named⟩
        rw [← (List.cons.inj single).1, comment] at named
        cases named
    | some name =>
        refine iff_of_false (fun whole => ?_) (fun bare => bare ⟨n, name, rfl, comment⟩)
        have first := whole.head?_eq
        rw [commentLines, Option.toList_some, List.map_singleton, ended_singleton,
          String.toList_append, toList_comment_jsx] at first
        cases first
  · refine iff_of_true (isNode_document_fragment (by simp) read) ?_
    rintro ⟨only, name, single, -⟩
    cases single

end

end Handoff.Markup
