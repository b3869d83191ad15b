import Handoff.Proofs.Design.Preorder
import Handoff.Proofs.Emission

/-!
Markup as it is laid out in lines.

`Event.read?` reads off a line of markup what it does, from its margin and from how the rest
begins and ends, and knows nothing of elements.  `documentEvents` is what the lines of a forest
are to do: one element for each node, those of its children inside it and one step deeper, and
in JSX a fragment around several roots.  That the events nest is decided with a stack
(`WellNested`).

A line is what is written as one.  A family name goes into a style as it is, and if there is a
line feed in it, the line still counts as one.

The main statement is `document_of_build`.
-/

namespace Handoff

open Design (Box Node)

namespace Markup

/-! ## Events -/

/-- What is opened and closed. -/
inductive Tag where
  | element
  | fragment
deriving DecidableEq, Repr

/-- What a line does; a leaf is an element that is opened and closed on one line. -/
inductive Mark where
  | opens (tag : Tag)
  | closes (tag : Tag)
  | leaf
deriving DecidableEq, Repr

/-- What a line does, and the column in which it begins. -/
structure Event where
  column : Nat
  mark : Mark
deriving DecidableEq, Repr

/-- What a line without its margin does. -/
def Mark.read? : List Char → Option Mark
  | ['<', '>'] => some (.opens .fragment)
  | ['<', '/', '>'] => some (.closes .fragment)
  | ['<', '/', 'd', 'i', 'v', '>'] => some (.closes .element)
  | '<' :: 'i' :: 'm' :: 'g' :: rest =>
    if ['/', '>'].isSuffixOf rest then some .leaf else none
  | '<' :: 'd' :: 'i' :: 'v' :: rest =>
    if ['<', '/', 'd', 'i', 'v', '>'].isSuffixOf rest then some .leaf
    else if ['>'].isSuffixOf rest then some (.opens .element)
    else none
  | _ => none

/-- What a line does. -/
def Event.read? (line : String) : Option Event :=
  (Mark.read? (line.toList.dropWhile (· == ' '))).map
    (⟨(line.toList.takeWhile (· == ' ')).length, ·⟩)

/-- Whether a line begins an element. -/
def Event.begins (e : Event) : Bool :=
  e.mark == .leaf || e.mark == .opens .element

/-- What is open after a line, the innermost first.  Nothing is closed but the innermost, and
every line is indented by as much as is open around it. -/
def nest (opened : List Tag) (e : Event) : Option (List Tag) :=
  match e.mark, opened with
  | .leaf, opened => if e.column = 2 * opened.length then some opened else none
  | .opens tag, opened => if e.column = 2 * opened.length then some (tag :: opened) else none
  | .closes tag, inner :: outer =>
    if tag = inner ∧ e.column = 2 * outer.length then some outer else none
  | .closes _, [] => none

/-- All that is opened is closed again. -/
def WellNested (events : List Event) : Prop :=
  events.foldlM nest [] = some []

instance (events : List Event) : Decidable (WellNested events) :=
  inferInstanceAs (Decidable (_ = _))

/-! ## The events of a forest -/

mutual

/-- The events of a node at a depth: those of its children stand between its own. -/
def events (depth : Nat) : Node → List Event
  | .mk _ children =>
    if children.isEmpty then [⟨2 * depth, .leaf⟩]
    else
      ⟨2 * depth, .opens .element⟩ ::
        (eventsOfList (depth + 1) children ++ [⟨2 * depth, .closes .element⟩])

/-- The events of nodes one after another. -/
def eventsOfList (depth : Nat) : List Node → List Event
  | [] => []
  | n :: rest => events depth n ++ eventsOfList depth rest

end

/-- Whether a fragment is put around the elements of a forest. -/
def inFragment (jsx : Bool) (forest : List Node) : Bool :=
  jsx && decide (forest.length > 1)

/-- How deep the roots of a forest stand. -/
def rootDepth (jsx : Bool) (forest : List Node) : Nat :=
  if inFragment jsx forest then 1 else 0

/-- The events of a document. -/
def documentEvents (jsx : Bool) (forest : List Node) : List Event :=
  if inFragment jsx forest then
    ⟨0, .opens .fragment⟩ :: (eventsOfList 1 forest ++ [⟨0, .closes .fragment⟩])
  else eventsOfList 0 forest

mutual

/-- A node with its depth, then all below it with theirs. -/
def preorderAt (depth : Nat) : Node → List (Nat × Node)
  | .mk box children => (depth, .mk box children) :: preorderListAt (depth + 1) children

/-- The nodes of a forest in preorder, each with its depth. -/
def preorderListAt (depth : Nat) : List Node → List (Nat × Node)
  | [] => []
  | n :: rest => preorderAt depth n ++ preorderListAt depth rest

end

theorem map_snd_preorderListAt (forest : List Node) : ∀ depth : Nat,
    (preorderListAt depth forest).map (·.2) = Node.preorderList forest := by
  induction forest using Node.forestInduction with
  | nil =>
      intro depth
      rfl
  | cons box children rest below after =>
      intro depth
      rw [preorderListAt, preorderAt, Node.preorderList_mk_cons, List.map_append, List.map_cons,
        below, after, List.cons_append]

/-- The event with which the element of a node begins. -/
def beginning (depth : Nat) (n : Node) : Event :=
  ⟨2 * depth, if n.children.isEmpty then .leaf else .opens .element⟩

/-- One element begins for each node. -/
theorem filter_begins_eventsOfList (forest : List Node) : ∀ depth : Nat,
    (eventsOfList depth forest).filter Event.begins =
      (preorderListAt depth forest).map fun (depth, n) => beginning depth n := by
  induction forest using Node.forestInduction with
  | nil =>
      intro depth
      rfl
  | cons box children rest below after =>
      intro depth
      have own : (events depth (.mk box children)).filter Event.begins =
          (preorderAt depth (.mk box children)).map fun (depth, n) => beginning depth n := by
        cases children with
        | nil => rfl
        | cons child others =>
            -- The line that closes the element begins none.
            have closing : ¬ Event.begins ⟨2 * depth, .closes .element⟩ = true :=
              Bool.false_ne_true
            rw [events, preorderAt, List.map_cons, ← below (depth + 1)]
            rw [List.isEmpty_cons, if_neg Bool.false_ne_true, List.filter_cons_of_pos (by rfl),
              List.filter_append, List.filter_cons_of_neg closing, List.filter_nil,
              List.append_nil]
            rfl
      rw [eventsOfList, preorderListAt, List.filter_append, List.map_append, own, after]

/-- The events of a forest close all they open, whatever is open around them. -/
theorem foldlM_nest_eventsOfList (forest : List Node) : ∀ opened : List Tag,
    (eventsOfList opened.length forest).foldlM nest opened = some opened := by
  induction forest using Node.forestInduction with
  | nil =>
      intro opened
      rfl
  | cons box children rest below after =>
      intro opened
      have own : (events opened.length (.mk box children)).foldlM nest opened = some opened := by
        cases children with
        | nil => simp [events, nest]
        | cons child others =>
            -- Below the node, its own element is open as well.
            have inside : (eventsOfList (opened.length + 1) (child :: others)).foldlM nest
                (.element :: opened) = some (.element :: opened) := below (.element :: opened)
            rw [events, List.isEmpty_cons, if_neg Bool.false_ne_true, List.foldlM_cons]
            simp [nest, List.foldlM_append, inside]
      rw [eventsOfList, List.foldlM_append, own]
      exact after opened

theorem wellNested_documentEvents (jsx : Bool) (forest : List Node) :
    WellNested (documentEvents jsx forest) := by
  unfold WellNested documentEvents
  split
  · have inside : (eventsOfList 1 forest).foldlM nest [.fragment] = some [.fragment] :=
      foldlM_nest_eventsOfList forest [.fragment]
    simp [nest, List.foldlM_append, inside]
  · exact foldlM_nest_eventsOfList forest []

theorem filter_begins_documentEvents (jsx : Bool) (forest : List Node) :
    (documentEvents jsx forest).filter Event.begins =
      (preorderListAt (rootDepth jsx forest) forest).map fun (depth, n) => beginning depth n := by
  unfold documentEvents rootDepth
  split
  · have opening : ¬ Event.begins ⟨0, .opens .fragment⟩ = true := Bool.false_ne_true
    have closing : ¬ Event.begins ⟨0, .closes .fragment⟩ = true := Bool.false_ne_true
    rw [List.filter_cons_of_neg opening, List.filter_append, List.filter_cons_of_neg closing,
      List.filter_nil, List.append_nil]
    exact filter_begins_eventsOfList forest 1
  · exact filter_begins_eventsOfList forest 0

/-! ## Leaves -/

theorem isLeaf_of_image {b : Box} (image : b.kind = .image) : isLeaf b = true := by
  rw [isLeaf, image]
  rfl

theorem isLeaf_of_characters? {b : Box} {text : String} (characters : b.characters? = some text) :
    isLeaf b = true := by
  obtain ⟨style, present, -⟩ := Option.map_eq_some_iff.mp characters
  rw [isLeaf, present, Option.isSome_some, Bool.or_true]

/-- The elements of a forest are those of its nodes in preorder, each under its parent, as long
as leaves have no children. -/
theorem visitsOfList_eq (forest : List Node) : ∀ parent : Option Node,
    (∀ n ∈ Node.preorderList forest, isLeaf n.box = true → n.children = []) →
      visitsOfList parent forest = Node.preorderListUnder parent forest := by
  induction forest using Node.forestInduction with
  | nil =>
      intro parent _
      rfl
  | cons box children rest below after =>
      intro parent leafless
      obtain ⟨own, inner, others⟩ := Node.forall_preorderList_mk_cons.mp leafless
      have inside : (if isLeaf box then [] else visitsOfList (some (.mk box children)) children) =
          Node.preorderListUnder (some (.mk box children)) children := by
        split
        · rename_i leaf
          rw [show children = [] from own leaf]
          rfl
        · exact below _ inner
      rw [visitsOfList, visitsOf, inside, after parent others, Node.preorderListUnder_mk_cons]
      rfl

/-! ## Reading lines -/

theorem read?_margin {text : String} {c : Char} {cs : List Char} (chars : text.toList = c :: cs)
    (solid : c ≠ ' ') (depth : Nat) :
    Event.read? (margin depth ++ text) = (Mark.read? text.toList).map (⟨2 * depth, ·⟩) := by
  have line : (margin depth ++ text).toList = List.replicate (2 * depth) ' ' ++ c :: cs := by
    rw [String.toList_append, margin, Text.spaces, String.toList_ofList, chars]
  -- The margin is blank and the text does not begin with a blank, so it is cut off just there.
  have blank : ∀ a ∈ List.replicate (2 * depth) ' ', (a == ' ') = true := by
    intro a member
    rw [List.eq_of_mem_replicate member]
    rfl
  have visible : (c == ' ') = false := beq_false_of_ne solid
  unfold Event.read?
  rw [line, List.takeWhile_append_of_pos blank, List.dropWhile_append_of_pos blank,
    List.dropWhile_cons, List.takeWhile_cons, visible, chars]
  simp only [Bool.false_eq_true, if_false, List.append_nil, List.length_replicate]

/-- An attribute ends with a quote or a brace. -/
theorem getLast?_text (dialect : Dialect) (a : Attribute) :
    (a.text dialect).toList.getLast? = some '"' ∨
      (a.text dialect).toList.getLast? = some '\x7d' := by
  have quoted : ∀ body : String, (body ++ "\"").toList.getLast? = some '"' := by
    intro body
    rw [String.toList_append]
    exact List.getLast?_concat
  cases a with
  | source url => exact .inl (quoted _)
  | layer name => exact .inl (quoted _)
  | classes names => exact .inl (quoted _)
  | style declarations =>
      cases dialect with
      | html => exact .inl (quoted _)
      | jsx =>
          refine .inr ?_
          rw [Attribute.text, String.toList_append]
          exact List.getLast?_append_of_ne_nil _ (by decide)

theorem getLast?_attributesText (dialect : Dialect) (attributes : List Attribute)
    (present : attributes ≠ []) :
    (attributesText dialect attributes).toList.getLast? = some '"' ∨
      (attributesText dialect attributes).toList.getLast? = some '\x7d' := by
  unfold attributesText
  induction attributes with
  | nil => exact (present rfl).elim
  | cons a rest ih =>
      cases rest with
      | nil =>
          rw [List.map_singleton, String.intercalate_singleton]
          exact getLast?_text dialect a
      | cons b others =>
          have later := ih (List.cons_ne_nil b others)
          rw [List.map_cons, List.map_cons, String.intercalate_cons_cons, String.toList_append]
          rw [List.map_cons] at later
          have nonempty : (" ".intercalate
              (b.text dialect :: others.map (·.text dialect))).toList ≠ [] := by
            intro empty
            rw [empty] at later
            simp at later
          rw [List.getLast?_append_of_ne_nil _ nonempty]
          exact later

/-- An opening tag begins like every element that is no image. -/
theorem toList_openTag (dialect : Dialect) (attributes : List Attribute) :
    ∃ rest, (openTag dialect attributes).toList = '<' :: 'd' :: 'i' :: 'v' :: (rest ++ ['>']) ∧
      rest.getLast? ≠ some 'v' := by
  unfold openTag
  cases attributes with
  | nil =>
      refine ⟨[], ?_, by decide⟩
      rw [List.isEmpty_nil, if_pos rfl]
      decide
  | cons a others =>
      refine ⟨' ' :: (attributesText dialect (a :: others)).toList, ?_, ?_⟩
      · rw [List.isEmpty_cons, if_neg Bool.false_ne_true, String.toList_append,
          String.toList_append]
        rfl
      · rcases getLast?_attributesText dialect (a :: others) (List.cons_ne_nil a others) with
          last | last
        · rw [List.getLast?_cons, last]
          decide
        · rw [List.getLast?_cons, last]
          decide

theorem read?_image (depth : Nat) (text : String) :
    Event.read? (margin depth ++ "<img " ++ text ++ " />") = some ⟨2 * depth, .leaf⟩ := by
  have chars : ("<img " ++ (text ++ " />")).toList =
      '<' :: 'i' :: 'm' :: 'g' :: ([' '] ++ text.toList ++ [' ', '/', '>']) := by
    rw [String.toList_append, String.toList_append]
    rfl
  have ends : ['/', '>'].isSuffixOf ([' '] ++ text.toList ++ [' ', '/', '>']) = true :=
    List.isSuffixOf_iff_suffix.mpr ⟨[' '] ++ text.toList ++ [' '], by simp⟩
  rw [String.append_assoc, String.append_assoc, read?_margin chars (by decide), chars, Mark.read?,
    if_pos ends]
  rfl

theorem read?_leaf (dialect : Dialect) (attributes : List Attribute) (depth : Nat)
    (content : String) :
    Event.read? (margin depth ++ openTag dialect attributes ++ content ++ "</div>") =
      some ⟨2 * depth, .leaf⟩ := by
  obtain ⟨rest, tag, -⟩ := toList_openTag dialect attributes
  have chars : (openTag dialect attributes ++ (content ++ "</div>")).toList =
      '<' :: 'd' :: 'i' :: 'v' :: (rest ++ ['>'] ++ content.toList ++ "</div>".toList) := by
    rw [String.toList_append, String.toList_append, tag]
    simp only [List.cons_append, List.append_assoc]
  have ends : ['<', '/', 'd', 'i', 'v', '>'].isSuffixOf
      (rest ++ ['>'] ++ content.toList ++ "</div>".toList) = true :=
    List.isSuffixOf_iff_suffix.mpr (List.suffix_append _ _)
  rw [String.append_assoc, String.append_assoc, read?_margin chars (by decide), chars, Mark.read?,
    if_pos ends]
  rfl

theorem read?_opens (dialect : Dialect) (attributes : List Attribute) (depth : Nat) :
    Event.read? (margin depth ++ openTag dialect attributes) =
      some ⟨2 * depth, .opens .element⟩ := by
  obtain ⟨rest, tag, last⟩ := toList_openTag dialect attributes
  -- If the line ended with a closing tag, its attributes would end with a letter.
  have open_ : ¬ ['<', '/', 'd', 'i', 'v', '>'].isSuffixOf (rest ++ ['>']) = true := by
    intro closed
    obtain ⟨before, same⟩ := List.isSuffixOf_iff_suffix.mp closed
    have before_last : before ++ ['<', '/', 'd', 'i', 'v'] = rest :=
      List.append_inj_left' (by simpa using same) rfl
    rw [← before_last, List.getLast?_append_of_ne_nil _ (by decide)] at last
    exact last rfl
  have ends : ['>'].isSuffixOf (rest ++ ['>']) = true :=
    List.isSuffixOf_iff_suffix.mpr (List.suffix_append _ _)
  rw [read?_margin tag (by decide), tag, Mark.read?, if_neg open_, if_pos ends]
  rfl

theorem read?_closes (depth : Nat) :
    Event.read? (margin depth ++ "</div>") = some ⟨2 * depth, .closes .element⟩ := by
  have chars : "</div>".toList = '<' :: ['/', 'd', 'i', 'v', '>'] := rfl
  rw [read?_margin chars (by decide), chars]
  rfl

/-- The lines of a box are those of its elements between its own. -/
theorem map_read?_lines_box (dialect : Dialect) (attributes : List Attribute) (depth : Nat)
    (elements : List Element) :
    ((Element.box none attributes elements).lines dialect depth).map Event.read? =
      if elements.isEmpty then [some ⟨2 * depth, .leaf⟩]
      else some ⟨2 * depth, .opens .element⟩ ::
        ((Element.listLines dialect (depth + 1) elements).map Event.read? ++
          [some ⟨2 * depth, .closes .element⟩]) := by
  cases elements with
  | nil =>
      have line := read?_leaf dialect attributes depth ""
      rw [String.append_empty] at line
      exact congrArg (fun e => [e]) line
  | cons first rest =>
      rw [Element.lines, List.isEmpty_cons, if_neg Bool.false_ne_true]
      simp only [commentLines, Option.toList_none, List.map_nil, List.nil_append, List.map_append,
        List.map_cons, List.cons_append, read?_opens, read?_closes]

theorem map_read?_listLines (dialect : Dialect) (attributes : Attributes) (forest : List Node) :
    ∀ (depth : Nat) (parent : Option Node),
      (∀ n ∈ Node.preorderList forest, isLeaf n.box = true → n.children = []) →
        (Element.listLines dialect depth (elementsOf attributes false parent forest)).map
          Event.read? = (eventsOfList depth forest).map some := by
  induction forest using Node.forestInduction with
  | nil =>
      intro depth parent _
      rfl
  | cons box children rest below after =>
      intro depth parent leafless
      obtain ⟨own, inner, others⟩ := Node.forall_preorderList_mk_cons.mp leafless
      have first : ((elementOf attributes false parent (.mk box children)).lines dialect depth).map
          Event.read? = (events depth (.mk box children)).map some := by
        rw [elementOf]
        by_cases image : box.kind = .image
        · rw [show children = [] from own (isLeaf_of_image image)]
          simp only [image, if_true, commentOf, Bool.false_eq_true, if_false, Element.lines]
          exact congrArg (fun e => [e]) (read?_image depth _)
        · simp only [image, if_false, commentOf, Bool.false_eq_true]
          cases characters : box.characters? with
          | some text =>
              rw [show children = [] from own (isLeaf_of_characters? characters)]
              exact congrArg (fun e => [e]) (read?_leaf dialect _ depth _)
          | none =>
              have inside := below (depth + 1) (some (.mk box children)) inner
              rw [map_read?_lines_box, inside, events]
              cases children with
              | nil => rfl
              | cons child more => rw [elementsOf, List.isEmpty_cons, List.isEmpty_cons,
                  if_neg Bool.false_ne_true, if_neg Bool.false_ne_true, List.map_cons,
                  List.map_append, List.map_singleton]
      rw [elementsOf, Element.listLines, eventsOfList, List.map_append, List.map_append, first,
        after depth parent others]

/-- The lines of a document without comments. -/
def linesOf (s : Settings) (attributes : Attributes) (forest : List Node) : List String :=
  documentLines (.ofSettings s) (elementsOf attributes false none forest)

theorem length_elementsOf (attributes : Attributes) (comments : Bool) (parent : Option Node)
    (nodes : List Node) : (elementsOf attributes comments parent nodes).length = nodes.length := by
  induction nodes with
  | nil => rfl
  | cons n rest ih => rw [elementsOf, List.length_cons, List.length_cons, ih]

theorem map_read?_linesOf (s : Settings) (attributes : Attributes) {forest : List Node}
    (leafless : ∀ n ∈ Node.preorderList forest, isLeaf n.box = true → n.children = []) :
    (linesOf s attributes forest).map Event.read? = (documentEvents s.jsx forest).map some := by
  have listed := fun depth =>
    map_read?_listLines (.ofSettings s) attributes forest depth none leafless
  have wraps : (Dialect.ofSettings s = .jsx ∧
      (elementsOf attributes false none forest).length > 1) ↔ inFragment s.jsx forest = true := by
    rw [length_elementsOf, inFragment, Dialect.ofSettings]
    cases s.jsx <;> simp
  have opening : Event.read? "<>" = some ⟨0, .opens .fragment⟩ := by decide
  have closing : Event.read? "</>" = some ⟨0, .closes .fragment⟩ := by decide
  rw [linesOf, documentLines, documentEvents]
  by_cases wrapped : inFragment s.jsx forest = true
  · rw [if_pos (wraps.mpr wrapped), if_pos wrapped, List.map_append, List.map_append, listed,
      List.map_singleton, List.map_singleton, List.map_cons, List.map_append, List.map_singleton,
      opening, closing, List.singleton_append, List.cons_append]
  · rw [if_neg (wraps.not.mpr wrapped), if_neg wrapped, listed]

/-! ## Attributes -/

/-- The attributes of an element. -/
def Element.attributes : Element → List Attribute
  | image _ attributes | text _ attributes _ | box _ attributes _ => attributes

/-- The attributes of a node's element; those of an image begin with its address. -/
def attributesOf (attributes : Attributes) (parent : Option Node) (n : Node) : List Attribute :=
  if n.box.kind = .image then .source n.box.placeholder :: attributes parent n
  else attributes parent n

/-- Attributes are asked for once a node, in preorder and with its parent. -/
theorem map_attributes_elementsOf (attributes : Attributes) (comments : Bool)
    (forest : List Node) : ∀ parent : Option Node,
    (∀ n ∈ Node.preorderList forest, isLeaf n.box = true → n.children = []) →
      (Element.listParts (elementsOf attributes comments parent forest)).map Element.attributes =
        (Node.preorderListUnder parent forest).map fun (parent, n) =>
          attributesOf attributes parent n := by
  induction forest using Node.forestInduction with
  | nil =>
      intro parent _
      rfl
  | cons box children rest below after =>
      intro parent leafless
      obtain ⟨own, inner, others⟩ := Node.forall_preorderList_mk_cons.mp leafless
      have first : (elementOf attributes comments parent (.mk box children)).parts.map
            Element.attributes =
          attributesOf attributes parent (.mk box children) ::
            (Node.preorderListUnder (some (.mk box children)) children).map fun (parent, n) =>
              attributesOf attributes parent n := by
        rw [elementOf, attributesOf]
        by_cases image : box.kind = .image
        · rw [show children = [] from own (isLeaf_of_image image)]
          simp only [Node.box, image, if_true, Element.parts, Element.attributes, List.map_cons]
          rfl
        · simp only [Node.box, image, if_false]
          cases characters : box.characters? with
          | some text =>
              rw [show children = [] from own (isLeaf_of_characters? characters)]
              rfl
          | none =>
              rw [Element.parts, List.map_cons, below (some (.mk box children)) inner]
              rfl
      rw [elementsOf, Element.listParts, List.map_append, first, after parent others,
        Node.preorderListUnder_mk_cons, List.map_cons, List.map_append, List.cons_append]

/-! ## Documents -/

/-- The markup of a forest under some settings. -/
structure Document (s : Settings) (forest : List Node) : Prop where
  html : Html.code s forest = "\n".intercalate (linesOf s (Html.attributes s) forest)
  tailwind : Tailwind.code s forest = "\n".intercalate (linesOf s (Tailwind.attributes s) forest)
  /-- Whatever the attributes are, the lines can be read, and they do what the forest asks
  for. -/
  lines : ∀ attributes : Attributes,
    (linesOf s attributes forest).map Event.read? = (documentEvents s.jsx forest).map some
  nested : WellNested (documentEvents s.jsx forest)
  /-- One element begins for each node, in preorder and as deep as the node. -/
  beginnings : (documentEvents s.jsx forest).filter Event.begins =
    (preorderListAt (rootDepth s.jsx forest) forest).map fun (depth, n) => beginning depth n
  nodes : (preorderListAt (rootDepth s.jsx forest) forest).map (·.2) = Node.preorderList forest
  /-- Attributes are asked for once a node, in preorder and with its parent. -/
  attributes : ∀ attributes : Attributes,
    (Element.listParts (elementsOf attributes false none forest)).map Element.attributes =
      (Node.preorderListUnder none forest).map fun (parent, n) =>
        attributesOf attributes parent n
  visits : visits forest = Node.preorderListUnder none forest

section

variable {s : Settings} {host : Option Scene.Node} {roots : List Scene.Node} {forest : List Node}

theorem childless_of_build (built : Design.build s host roots = .ok forest) :
    ∀ n ∈ Node.preorderList forest, isLeaf n.box = true → n.children = [] :=
  fun _ member leaf => Design.leafless_of_build built member (.inl leaf)

theorem visits_of_build (built : Design.build s host roots = .ok forest) :
    visits forest = Node.preorderListUnder none forest :=
  visitsOfList_eq forest none (childless_of_build built)

theorem map_attributes_of_build (built : Design.build s host roots = .ok forest)
    (attributes : Attributes) (comments : Bool) :
    (Element.listParts (elementsOf attributes comments none forest)).map Element.attributes =
      (Node.preorderListUnder none forest).map fun (parent, n) =>
        attributesOf attributes parent n :=
  map_attributes_elementsOf attributes comments forest none (childless_of_build built)

end

/-- The markup of every design is laid out as the design is, as long as it names no layers. -/
theorem document_of_build {s t : Settings} {host : Option Scene.Node} {roots : List Scene.Node}
    {forest : List Node} (built : Design.build s host roots = .ok forest)
    (unnamed : t.showLayerNames = false) : Document t forest := by
  constructor
  · rfl
  · rw [Tailwind.code, unnamed]
    rfl
  · exact fun attributes => map_read?_linesOf t attributes (childless_of_build built)
  · exact wellNested_documentEvents t.jsx forest
  · exact filter_begins_documentEvents t.jsx forest
  · exact map_snd_preorderListAt forest _
  · exact fun attributes => map_attributes_of_build built attributes false
  · exact visits_of_build built

/-- Two frames next to each other, one of them with a text in it, as JSX. -/
theorem document_of_build_frames :
    let text : Scene.Node := .mk { nodeType := "TEXT", characters := some "Hi" } []
    let first : Scene.Node := .mk { nodeType := "FRAME" } [text]
    let second : Scene.Node := .mk { nodeType := "FRAME" } []
    let t : Settings := { Settings.defaults with jsx := true }
    let forest := (Design.ofSelection t none [first, second] .empty).1
    Design.build t none [first, second] = .ok forest ∧ t.showLayerNames = false ∧
      documentEvents t.jsx forest =
        [⟨0, .opens .fragment⟩, ⟨2, .opens .element⟩, ⟨4, .leaf⟩, ⟨2, .closes .element⟩,
          ⟨2, .leaf⟩, ⟨0, .closes .fragment⟩] ∧
      Document t forest := by
  intro text first second t forest
  have built : Design.build t none [first, second] = .ok forest := rfl
  exact ⟨built, rfl, rfl, document_of_build built rfl⟩

end Markup

end Handoff
