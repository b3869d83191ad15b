import Handoff.Proofs.Opacity.Exchange
import Handoff.Proofs.Opacity.Tally
import Handoff.Proofs.Css.Properties
import Handoff.Proofs.Html.Classes
import Handoff.Proofs.FullWidth

/-!
A fill exchanged for another, in markup.

Of the attributes of a node only those of the node with the fill differ, and nothing between them
and the document counts on what they are (`Markup.shifts_document`).  So the code of a design
differs by what its fill does: a declaration (`Css.exists_declarations`) or some classes
(`Tailwind.exists_classes`).
-/

namespace Handoff

open Design (Box Node Paint Fill)
open Text (tally isBlank)

theorem Design.Box.IsContainer.not_isLeaf {b : Box} (container : b.IsContainer) :
    Markup.isLeaf b = false := by
  obtain ⟨holds, text⟩ := container
  unfold Markup.isLeaf
  rw [text]
  cases kind : b.kind <;> simp_all [Design.Kind.holdsChildren]

/-! ## What is read off a node -/

namespace Markup

open Design (layoutOf)

section

variable {α : Type} {read : Option Node → Node → α}

/-- What is read off a node depends on the layout of the parent and on how children are placed,
and else on the box of the node. -/
def Local (read : Option Node → Node → α) : Prop :=
  ∀ {parent parent' : Option Node} {b : Box} {children children' : List Node},
    layoutOf parent = layoutOf parent' →
      (Node.mk b children).hasAbsoluteChild = (Node.mk b children').hasAbsoluteChild →
        read parent (.mk b children) = read parent' (.mk b children')

/-- What is read off a container with the single fill `Q` counts `more` more than what is read off
the same container with `P`. -/
def FillShift (same : Prop) (more : Int) (count : α → Nat) (read : Option Node → Node → α)
    (P Q : Paint) : Prop :=
  ∀ (parent : Option Node) {b : Box} (children : List Node), b.IsContainer →
    Shifts same more count (read parent (.mk (b.withFill P) children))
      (read parent (.mk (b.withFill Q) children))

end

/-! ## Lists -/

section

variable {α : Type} {read : Option Node → Node → List α} {measure : α → Nat} {same : Prop}
  {more : Int} {P Q : Paint}

/-- What is read off the nodes that become elements. -/
def readings (read : Option Node → Node → List α) (parent : Option Node) (nodes : List Node) :
    List α :=
  (visitsOfList parent nodes).flatMap fun (parent, n) => read parent n

theorem readings_cons (parent : Option Node) (b : Box) (children rest : List Node) :
    readings read parent (.mk b children :: rest) =
      read parent (.mk b children) ++
        (if isLeaf b then [] else readings read (some (.mk b children)) children) ++
          readings read parent rest := by
  unfold readings
  rw [visitsOfList, visitsOf, List.flatMap_append, List.flatMap_cons]
  cases isLeaf b <;> rfl

theorem readings_append (parent : Option Node) (before after : List Node) :
    readings read parent (before ++ after) =
      readings read parent before ++ readings read parent after := by
  induction before with
  | nil => rfl
  | cons n rest ih =>
      cases n with
      | mk b children =>
          rw [List.cons_append, readings_cons, ih, readings_cons, ← List.append_assoc]

theorem readings_congr (reads : Local read) {parent parent' : Option Node}
    (same : layoutOf parent = layoutOf parent') (nodes : List Node) :
    readings read parent nodes = readings read parent' nodes := by
  induction nodes with
  | nil => rfl
  | cons n rest ih =>
      cases n with
      | mk b children => rw [readings_cons, readings_cons, ih, reads same rfl]

/-- What is read off nodes counts `more` more after `P` is exchanged for `Q` in one of them or below
it. -/
theorem shifts_readings (reads : Local read)
    (shift : FillShift same more (total measure) read P Q) {n m : Node}
    (changed : n.Exchanged P Q m) : ∀ {parent parent' : Option Node} (before after : List Node),
      layoutOf parent = layoutOf parent' → Shifts same more (total measure)
        (readings read parent (before ++ n :: after))
        (readings read parent' (before ++ m :: after)) := by
  induction changed with
  | @own b children container =>
      intro parent parent' before after parents
      have first : isLeaf (b.withFill P) = false := container.not_isLeaf
      have second : isLeaf (b.withFill Q) = false := container.not_isLeaf
      have inner := readings_congr reads (show layoutOf (some (Node.mk (b.withFill P) children)) =
        layoutOf (some (Node.mk (b.withFill Q) children)) from rfl) children
      rw [readings_append, readings_append, readings_cons, readings_cons, first, second,
        readings_congr reads parents, readings_congr reads parents, inner,
        reads (b := b.withFill P) parents rfl]
      have own := (shift parent' children container).around
        (adds_between (readings read parent' before)
          (readings read (some (.mk (b.withFill Q) children)) children ++
            readings read parent' after))
      simpa [List.append_assoc] using own
  | @inside b earlier later n m container changed ih =>
      intro parent parent' before after parents
      have placed := Design.hasAbsoluteChild_exchanged changed b earlier later
      have around : layoutOf (some (Node.mk b (earlier ++ n :: later))) =
          layoutOf (some (Node.mk b (earlier ++ m :: later))) := rfl
      rw [readings_append, readings_append, readings_cons, readings_cons, container.not_isLeaf,
        readings_congr reads parents, readings_congr reads parents, reads parents placed.symm]
      have own := (ih earlier later around).around
        (adds_between (readings read parent' before ++
          read parent' (.mk b (earlier ++ m :: later))) (readings read parent' after))
      simpa [List.append_assoc] using own

end

/-! ## Documents -/

section

variable {c : Char} {dialect : Dialect} {attributes : Attributes} {comments : Bool}

/-- The occurrences in some attributes. -/
def attributesTally (c : Char) (dialect : Dialect) : List Attribute → Nat :=
  total fun a => tally c (a.text dialect)

theorem elementsOf_append_cons (attributes : Attributes) (comments : Bool) (parent : Option Node)
    (before : List Node) (n : Node) (after : List Node) :
    elementsOf attributes comments parent (before ++ n :: after) =
      elementsOf attributes comments parent before ++
        elementOf attributes comments parent n :: elementsOf attributes comments parent after := by
  induction before with
  | nil => rw [List.nil_append, elementsOf, elementsOf]; rfl
  | cons first rest ih => rw [List.cons_append, elementsOf, elementsOf, ih, List.cons_append]

/-- Elements depend on no more of the parent than attributes do. -/
theorem elementsOf_congr (reads : Local attributes) {parent parent' : Option Node}
    (same : layoutOf parent = layoutOf parent') (nodes : List Node) :
    elementsOf attributes comments parent nodes = elementsOf attributes comments parent' nodes := by
  induction nodes with
  | nil => rfl
  | cons n rest ih =>
      cases n with
      | mk b children =>
          rw [elementsOf, elementsOf, ih, elementOf, elementOf]
          simp only [reads same rfl]

theorem listLines_append (depth : Nat) (first later : List Element) :
    Element.listLines dialect depth (first ++ later) =
      Element.listLines dialect depth first ++ Element.listLines dialect depth later := by
  induction first with
  | nil => rfl
  | cons e rest ih =>
      rw [List.cons_append, Element.listLines, Element.listLines, ih, List.append_assoc]

/-- A box with elements in it has the lines of its comment and its opening tag before theirs, and
the closing tag after. -/
theorem lines_box_of_ne_nil {depth : Nat} {name : Option String} {own : List Attribute}
    {elements : List Element} (some : elements ≠ []) :
    (Element.box name own elements).lines dialect depth = commentLines dialect depth name ++
      [margin depth ++ openTag dialect own] ++ Element.listLines dialect (depth + 1) elements ++
        [margin depth ++ "</div>"] := by
  cases elements with
  | nil => exact absurd rfl some
  | cons e rest => rw [Element.lines]

section

variable (solid : isBlank c = false)
include solid

theorem tally_attributesText (own : List Attribute) :
    tally c (attributesText dialect own) = attributesTally c dialect own := by
  rw [attributesText, Text.tally_intercalate (Text.tally_of_blank solid (by decide)), List.map_map]
  rfl

/-- A tag has the occurrences in `<div>` and those in its attributes. -/
theorem tally_openTag (own : List Attribute) :
    tally c (openTag dialect own) = tally c "<div>" + attributesTally c dialect own := by
  have blank : tally c " " = 0 := Text.tally_of_blank solid (by decide)
  have front : tally c "<div " = tally c "<div" := by
    rw [show "<div " = "<div" ++ " " from rfl, Text.tally_append, blank, Nat.add_zero]
  have ends : tally c "<div>" = tally c "<div" + tally c ">" := by
    rw [← Text.tally_append]
    rfl
  unfold openTag
  split
  · rename_i none
    rw [List.isEmpty_iff.mp none]
    rfl
  · rw [Text.tally_append, Text.tally_append, tally_attributesText solid, front, ends]
    omega

end

section

variable {same : Prop} {more : Int} {P Q : Paint}

theorem shifts_listLines {depth : Nat} {e e' : Element}
    (inner : Shifts same more (total (tally c)) (e.lines dialect depth) (e'.lines dialect depth))
    (earlier later : List Element) : Shifts same more (total (tally c))
      (Element.listLines dialect depth (earlier ++ e :: later))
      (Element.listLines dialect depth (earlier ++ e' :: later)) := by
  simp only [listLines_append, Element.listLines, ← List.append_assoc]
  exact inner.around (adds_between _ _)

theorem shifts_lines_box {depth : Nat} {name : Option String} {own : List Attribute}
    {e e' : Element} {earlier later : List Element} (inner : Shifts same more (total (tally c))
      (e.lines dialect (depth + 1)) (e'.lines dialect (depth + 1))) :
    Shifts same more (total (tally c))
      ((Element.box name own (earlier ++ e :: later)).lines dialect depth)
      ((Element.box name own (earlier ++ e' :: later)).lines dialect depth) := by
  rw [lines_box_of_ne_nil (by simp), lines_box_of_ne_nil (by simp)]
  exact (shifts_listLines inner earlier later).around (adds_between _ _)

/-- The lines of a box have the occurrences in its attributes, and more that do not depend on
them. -/
theorem adds_lines_box (solid : isBlank c = false) (depth : Nat) (name : Option String)
    (elements : List Element) : Adds (attributesTally c dialect) (total (tally c)) fun own =>
      (Element.box name own elements).lines dialect depth := by
  have tag : Adds (attributesTally c dialect) (tally c) (openTag dialect) :=
    ⟨tally c "<div>", tally_openTag solid⟩
  cases elements with
  | nil =>
      have line := (Text.adds_enclose (margin depth) "</div>").comp tag
      have lines := (adds_inList (commentLines dialect depth name) []).comp line
      simpa only [Element.lines] using lines
  | cons e rest =>
      have line := (Text.adds_enclose (margin depth) "").comp tag
      have lines := (adds_inList (commentLines dialect depth name)
        (Element.listLines dialect (depth + 1) (e :: rest) ++ [margin depth ++ "</div>"])).comp line
      simpa [Element.lines] using lines

theorem elementOf_container {b : Box} (container : b.IsContainer) (parent : Option Node)
    (children : List Node) : elementOf attributes comments parent (.mk b children) =
      .box (commentOf comments b) (attributes parent (.mk b children))
        (elementsOf attributes comments (some (.mk b children)) children) := by
  have none : b.characters? = none := by rw [Box.characters?, container.text]; rfl
  rw [elementOf]
  simp only [container.kind_ne.1, none, if_false]

/-- The lines of a node have as many more occurrences after the exchange as the attributes of the
node whose fill it is. -/
theorem shifts_lines (solid : isBlank c = false) (reads : Local attributes)
    (shift : FillShift same more (attributesTally c dialect) attributes P Q) {n m : Node}
    (changed : n.Exchanged P Q m) : ∀ (depth : Nat) {parent parent' : Option Node},
      layoutOf parent = layoutOf parent' → Shifts same more (total (tally c))
        ((elementOf attributes comments parent n).lines dialect depth)
        ((elementOf attributes comments parent' m).lines dialect depth) := by
  induction changed with
  | @own b children container =>
      intro depth parent parent' parents
      have first := container.withFill P
      have second := container.withFill Q
      rw [elementOf_container first, elementOf_container second,
        ← @reads parent parent' (b.withFill Q) children children parents rfl,
        elementsOf_congr reads (show layoutOf (some (Node.mk (b.withFill P) children)) =
          layoutOf (some (Node.mk (b.withFill Q) children)) from rfl)]
      exact (shift parent children container).around (adds_lines_box solid depth _ _)
  | @inside b before after n m container changed ih =>
      intro depth parent parent' parents
      have placed := Design.hasAbsoluteChild_exchanged changed b before after
      have around : layoutOf (some (Node.mk b (before ++ n :: after))) =
          layoutOf (some (Node.mk b (before ++ m :: after))) := rfl
      rw [elementOf_container container, elementOf_container container,
        ← @reads parent parent' b _ _ parents placed.symm, elementsOf_append_cons,
        elementsOf_append_cons, elementsOf_congr reads around, elementsOf_congr reads around]
      exact shifts_lines_box (ih (depth + 1) around)

/-- The document of a forest has as many more occurrences after the exchange as the attributes of
the node whose fill it is. -/
theorem shifts_document (solid : isBlank c = false) (reads : Local attributes)
    (shift : FillShift same more (attributesTally c dialect) attributes P Q)
    {forest forest' : List Node} (changed : InOnePlace (Node.Exchanged P Q) forest forest') :
    Shifts same more (tally c) (document dialect (elementsOf attributes comments none forest))
      (document dialect (elementsOf attributes comments none forest')) := by
  obtain ⟨before, n, m, after, rfl, rfl, changed⟩ := changed
  have own (depth : Nat) : Shifts same more (total (tally c))
      ((elementOf attributes comments none n).lines dialect depth)
      ((elementOf attributes comments none m).lines dialect depth) :=
    shifts_lines solid reads shift changed depth rfl
  have lines (depth : Nat) := shifts_listLines (own depth)
    (elementsOf attributes comments none before) (elementsOf attributes comments none after)
  have feed : tally c "\n" = 0 := Text.tally_of_blank solid (by decide)
  rw [elementsOf_append_cons, elementsOf_append_cons]
  unfold document documentLines
  simp only [List.length_append, List.length_cons]
  split
  · exact (lines 1).around ((Text.adds_intercalate feed).comp (adds_between ["<>"] ["</>"]))
  · exact (lines 0).around (Text.adds_intercalate feed)

end

end

end Markup

end Handoff
