import Handoff.Proofs.Drawing
import Handoff.Swift.Code

/-!
What SwiftUI code draws.

`View.drawings` reads a view from left to right.  A spacer draws nothing, and two stacks do not
draw anything themselves: the one that holds the roots, and the line of a flow that lies in a
stack of layers under what is placed at an offset.  Such a line is told by its having no
modifiers; the views beside it have at least their offset (`modifiers_ne_nil`).

A node draws what it asks for, lined up (`Swift.drawings_view`).
-/

namespace Handoff.Swift

open Design (Box Node)

/-! ## Reading views -/

/-- The head of a stack of layers. -/
def layersHead : String := "ZStack(alignment: .topLeading)"

/-- The head of the stack that holds all roots. -/
def rootsHead : String := "VStack(alignment: .leading)"

/-- What the head of a view draws. -/
def figureOf (head : String) : Figure :=
  if ['T', 'e', 'x', 't', '('].isPrefixOf head.toList then
    .text (String.ofList (head.toList.drop 5).dropLast)
  else if ['A', 's', 'y', 'n', 'c', 'I', 'm', 'a', 'g', 'e', '('].isPrefixOf head.toList then
    .image
  else .box

mutual

/-- What a view draws; `layer` says that it lies in a stack of layers. -/
def View.drawings (layer : Bool) : View → List Drawing
  | .mk comment head children modifiers =>
    if head = "Spacer()" then []
    else if head = rootsHead ∨ (layer = true ∧ modifiers = []) then
      View.listDrawings false children
    else [.mk comment (figureOf head) (View.listDrawings (head == layersHead) children)]

/-- What views draw in turn. -/
def View.listDrawings (layer : Bool) : List View → List Drawing
  | [] => []
  | v :: rest => v.drawings layer ++ View.listDrawings layer rest

end

theorem View.listDrawings_eq_flatMap (layer : Bool) (views : List View) :
    View.listDrawings layer views = views.flatMap (View.drawings layer) := by
  induction views with
  | nil => rfl
  | cons v rest ih => rw [View.listDrawings, ih, List.flatMap_cons]

/-! ## Heads -/

/-- The first character of a text. -/
def Begins (c : Char) (text : String) : Prop :=
  text.toList.head? = some c

theorem Begins.append {c : Char} {first : String} (begins : Begins c first) (later : String) :
    Begins c (first ++ later) := by
  unfold Begins at begins ⊢
  rw [String.toList_append, List.head?_append, begins, Option.some_or]

theorem Begins.ne {c d : Char} {first second : String} (begins : Begins c first)
    (other : Begins d second) (distinct : c ≠ d) : first ≠ second := by
  rintro rfl
  exact distinct (Option.some.inj (begins.symm.trans other))

/-- A head that is drawn as a figure. -/
structure Draws (figure : Figure) (head : String) : Prop where
  spacer : head ≠ "Spacer()"
  roots : head ≠ rootsHead
  figure : figureOf head = figure

/-- Whatever does not begin like a text or an image is drawn as a box. -/
theorem figureOf_box {c : Char} {head : String} (begins : Begins c head) (text : c ≠ 'T')
    (image : c ≠ 'A') : figureOf head = .box := by
  unfold Begins at begins
  cases chars : head.toList with
  | nil => rw [chars] at begins; cases begins
  | cons d rest =>
      rw [chars] at begins
      cases begins
      simp [figureOf, chars, List.isPrefixOf, text.symm, image.symm]

theorem draws_box {c : Char} {head : String} (begins : Begins c head)
    (other : c ∉ ['S', 'V', 'T', 'A']) : Draws .box head := by
  simp only [List.mem_cons, List.not_mem_nil, or_false, not_or] at other
  obtain ⟨spacer, roots, text, image⟩ := other
  exact ⟨begins.ne rfl spacer, begins.ne rfl roots, figureOf_box begins text image⟩

theorem draws_text (body : String) : Draws (.text body) ("Text(" ++ body ++ ")") := by
  have first : Begins 'T' "Text(" := rfl
  have begins := (first.append body).append ")"
  have chars : ("Text(" ++ body ++ ")").toList =
      ['T', 'e', 'x', 't', '('] ++ (body.toList ++ [')']) := by
    rw [String.toList_append, String.toList_append, List.append_assoc]
    rfl
  refine ⟨begins.ne (d := 'S') rfl (by decide), begins.ne (d := 'V') rfl (by decide), ?_⟩
  rw [figureOf, chars]
  simp [List.isPrefixOf]

theorem draws_image (address : String) :
    Draws .image ("AsyncImage(url: URL(string: " ++ address ++ "))") := by
  have first : Begins 'A' "AsyncImage(url: URL(string: " := rfl
  have begins := (first.append address).append "))"
  have chars : ("AsyncImage(url: URL(string: " ++ address ++ "))").toList =
      ['A', 's', 'y', 'n', 'c', 'I', 'm', 'a', 'g', 'e', '('] ++
        ("url: URL(string: ".toList ++ (address.toList ++ "))".toList)) := by
    rw [String.toList_append, String.toList_append, List.append_assoc]
    rfl
  refine ⟨begins.ne (d := 'S') rfl (by decide), begins.ne (d := 'V') rfl (by decide), ?_⟩
  rw [figureOf, chars]
  simp [List.isPrefixOf]

/-- The first character of a shape. -/
theorem begins_shape (b : Box) : ∃ c ∈ ['E', 'R', 'U'], Begins c (shape b) := by
  unfold shape
  split
  · exact ⟨'E', by decide, rfl⟩
  · split
    · exact ⟨'R', by decide, rfl⟩
    · have first : Begins 'R' "RoundedRectangle(cornerRadius: " := rfl
      exact ⟨'R', by decide, (first.append _).append ")"⟩
    · have first : Begins 'U' "UnevenRoundedRectangle(topLeadingRadius: " := rfl
      exact ⟨'U', by decide, (((((((first.append _).append _).append _).append _).append _).append
        _).append _).append ")"⟩

theorem draws_shape (b : Box) : Draws .box (shape b) := by
  obtain ⟨c, known, begins⟩ := begins_shape b
  have other : ∀ c ∈ ['E', 'R', 'U'], c ∉ ['S', 'V', 'T', 'A'] := by simp
  exact draws_box begins (other c known)

theorem draws_layersHead : Draws .box layersHead :=
  draws_box (c := 'Z') rfl (by decide)

/-- The stack of a vertical flow is told from the stack of the roots by its spacing. -/
theorem stackHead_ne_rootsHead {f : Design.Flow} (vertical : f.direction = .vertical)
    (spacing : String) : stackHead f spacing ≠ rootsHead := by
  -- The stack of the roots ends after its alignment, where a flow gives its spacing.
  have cut : ∀ a, ¬ (stackName .vertical ++ "(alignment: " ++ stackAlignment .vertical a ++
      ", spacing: ").toList <+: rootsHead.toList := by
    intro a
    cases a <;> decide +kernel
  intro same
  rw [stackHead, vertical] at same
  refine cut f.alignment ⟨(spacing ++ ")").toList, ?_⟩
  rw [← String.toList_append, ← String.append_assoc, same]

/-- The stack of a flow is drawn as a box, and is no stack of layers. -/
theorem draws_stackHead (f : Design.Flow) (spacing : String) :
    Draws .box (stackHead f spacing) ∧ stackHead f spacing ≠ layersHead := by
  have begins : ∀ c, Begins c (stackName f.direction) → Begins c (stackHead f spacing) :=
    fun c first => ((((first.append _).append _).append _).append _).append _
  cases direction : f.direction with
  | horizontal =>
      have first := begins 'H' (by rw [direction]; rfl)
      exact ⟨draws_box first (by decide), first.ne (d := 'Z') rfl (by decide)⟩
  | vertical =>
      have first := begins 'V' (by rw [direction]; rfl)
      exact ⟨⟨first.ne (d := 'S') rfl (by decide), stackHead_ne_rootsHead direction spacing,
        figureOf_box first (by decide) (by decide)⟩, first.ne (d := 'Z') rfl (by decide)⟩

/-! ## Stacks -/

theorem View.drawings_figure {figure : Figure} {head : String} (draws : Draws figure head)
    {layer : Bool} {modifiers : List String} (modified : layer = true → modifiers ≠ [])
    (comment : Option String) (children : List View) :
    (View.mk comment head children modifiers).drawings layer =
      [.mk comment figure (View.listDrawings (head == layersHead) children)] := by
  have own : ¬ (head = rootsHead ∨ (layer = true ∧ modifiers = [])) := by
    rintro (roots | ⟨inLayers, none⟩)
    · exact draws.roots roots
    · exact modified inLayers none
  rw [View.drawings, if_neg draws.spacer, if_neg own, draws.figure]

theorem listDrawings_intersperse (layer : Bool) (views : List View) :
    View.listDrawings layer (views.intersperse spacer) = View.listDrawings layer views := by
  induction views with
  | nil => rfl
  | cons v rest ih =>
      cases rest with
      | nil => rfl
      | cons w others =>
          have blank : spacer.drawings layer = [] := rfl
          rw [List.intersperse_cons_cons, View.listDrawings, View.listDrawings, ih, blank]
          rfl

/-- The stack of a flow on its own is a box with its views inside; as the line in a stack of
layers it is nothing but its views. -/
theorem drawings_stackView (f : Design.Flow) (views : List View) :
    Draws .box (stackView f views).head ∧ (stackView f views).head ≠ layersHead ∧
      View.listDrawings false (stackView f views).children = View.listDrawings false views ∧
      (stackView f views).drawings true = View.listDrawings false views := by
  unfold stackView
  split
  · obtain ⟨draws, notLayers⟩ := draws_stackHead f "0"
    refine ⟨draws, notLayers, listDrawings_intersperse false views, ?_⟩
    rw [View.group, View.drawings, if_neg draws.spacer, if_pos (.inr ⟨rfl, rfl⟩),
      listDrawings_intersperse]
  · obtain ⟨draws, notLayers⟩ := draws_stackHead f (Decimal.plain f.gap)
    refine ⟨draws, notLayers, rfl, ?_⟩
    rw [View.group, View.drawings, if_neg draws.spacer, if_pos (.inr ⟨rfl, rfl⟩)]

/-! ## Nodes -/

/-- How the text of a node is written. -/
def textLiteral (t : Design.TextStyle) : String :=
  literal (t.typography.textCase.apply t.characters)

/-- How SwiftUI code draws boxes. -/
def legend (names : Bool) : Legend :=
  ⟨commentOf names, Figure.ofBox textLiteral⟩

section

variable {f : Node → View} {g : Node → Drawing} {children : List Node}

theorem listDrawings_map {layer : Bool} (each : ∀ c ∈ children, (f c).drawings layer = [g c]) :
    View.listDrawings layer (children.map f) = children.map g := by
  rw [View.listDrawings_eq_flatMap, List.flatMap_map, List.flatMap_congr each,
    ← List.map_eq_flatMap]

/-- A container has its children in it as they are lined up. -/
theorem drawings_containerView (b : Box)
    (placed : b.layout.mode = .absolute → ∀ c ∈ children, c.isAbsolute = true)
    (each : ∀ c ∈ children, ∀ layer : Bool, (layer = true → c.isAbsolute = true) →
      (f c).drawings layer = [g c]) :
    Draws .box (containerView b (children.map fun c => (c, f c))).head ∧
      View.listDrawings ((containerView b (children.map fun c => (c, f c))).head == layersHead)
        (containerView b (children.map fun c => (c, f c))).children =
          (b.lineUp children).map g := by
  have flowing : View.listDrawings false ((children.filter (!·.isAbsolute)).map f) =
      (children.filter (!·.isAbsolute)).map g :=
    listDrawings_map fun c member =>
      each c (List.mem_of_mem_filter member) false fun never => nomatch never
  have positioned : View.listDrawings true ((children.filter (·.isAbsolute)).map f) =
      (children.filter (·.isAbsolute)).map g :=
    listDrawings_map fun c member =>
      each c (List.mem_of_mem_filter member) true fun _ => (List.mem_filter.mp member).2
  unfold containerView Box.lineUp
  rw [List.isEmpty_map, Node.placedAs_false, Node.placedAs_true]
  by_cases absent : children.isEmpty = true
  · rw [if_pos absent, List.isEmpty_iff.mp absent]
    refine ⟨draws_box (c := 'C') rfl (by decide), ?_⟩
    cases b.layout.mode <;> rfl
  · rw [if_neg absent]
    cases mode : b.layout.mode with
    | absolute =>
        rw [List.map_map]
        refine ⟨draws_layersHead, ?_⟩
        exact listDrawings_map fun c member => each c member true fun _ => placed mode c member
    | flow flow =>
        obtain ⟨draws, notLayers, line, underLayers⟩ :=
          drawings_stackView flow ((children.filter (!·.isAbsolute)).map f)
        dsimp only
        split
        · -- Nothing is at an offset, and the line is the view itself.
          rename_i nothing
          rw [nothing] at positioned
          refine ⟨draws, ?_⟩
          rw [beq_false_of_ne notLayers, line, flowing, List.map_append, ← positioned]
          exact (List.append_nil _).symm
        · -- The line is a layer without modifiers, so its views are drawn in its place.
          refine ⟨draws_layersHead, ?_⟩
          rw [List.map_append, ← flowing, ← positioned, ← underLayers]
          rfl

theorem drawings_base {n : Node} (leaf : isLeaf n = true → n.children = [])
    (placed : n.box.layout.mode = .absolute → ∀ c ∈ n.children, c.isAbsolute = true)
    (each : ∀ c ∈ n.children, ∀ layer : Bool, (layer = true → c.isAbsolute = true) →
      (f c).drawings layer = [g c]) :
    Draws (Figure.ofBox textLiteral n.box) (base n (n.children.map fun c => (c, f c))).head ∧
      View.listDrawings ((base n (n.children.map fun c => (c, f c))).head == layersHead)
        (base n (n.children.map fun c => (c, f c))).children = (n.box.lineUp n.children).map g := by
  have childless : isLeaf n = true → [] = (n.box.lineUp n.children).map g := by
    intro isLeaf
    rw [leaf isLeaf, Box.lineUp_nil, List.map_nil]
  unfold base
  cases style : n.box.style.text with
  | some t =>
      rw [Figure.ofBox_text style, ← childless (by rw [isLeaf, style]; rfl)]
      exact ⟨draws_text _, rfl⟩
  | none =>
      by_cases image : n.box.kind = .image
      · rw [Figure.ofBox_image style image, ← childless (by simp [isLeaf, image])]
        simp only [image, if_true]
        exact ⟨draws_image _, rfl⟩
      · rw [Figure.ofBox_box style image]
        simp only [image, if_false]
        split
        · rename_i line
          rw [← childless (by simp [isLeaf, line])]
          have first : Begins 'R' "Rectangle()" := rfl
          exact ⟨draws_box first (by decide), rfl⟩
        · split
          · rename_i shape
            rw [← childless (by simp [isLeaf, shape])]
            exact ⟨draws_shape _, rfl⟩
          · exact drawings_containerView n.box placed each

end

/-- What is placed at an offset has a modifier that says so. -/
theorem modifiers_ne_nil {n : Node} (absolute : n.isAbsolute = true) : modifiers n ≠ [] := by
  unfold modifiers
  refine List.append_ne_nil_of_right_ne_nil _ ?_
  unfold Node.isAbsolute at absolute
  cases placed : n.box.layout.placement with
  | absolute left top => exact List.cons_ne_nil _ _
  | root | flow =>
      rw [placed] at absolute
      cases absolute

/-- SwiftUI code draws well-formed nodes lined up, as long as nodes without a flow place their
children at offsets. -/
theorem drawings_view (names : Bool) (forest : List Node) :
    (∀ n ∈ Node.preorderList forest, n.WellFormed) →
      (∀ n ∈ Node.preorderList forest, n.box.layout.mode = .absolute →
        ∀ c ∈ n.children, c.isAbsolute = true) →
      ∀ n ∈ forest, ∀ layer : Bool, (layer = true → n.isAbsolute = true) →
        (view names n).drawings layer = [n.arranged.drawing (legend names)] := by
  induction forest using Node.forestInduction with
  | nil => exact fun _ _ n member => nomatch member
  | cons box children rest below after =>
      intro formed placed n member layer absolute
      obtain ⟨own, inner, others⟩ := Node.forall_preorderList_mk_cons.mp formed
      obtain ⟨ownPlaced, innerPlaced, othersPlaced⟩ := Node.forall_preorderList_mk_cons.mp placed
      rcases List.mem_cons.mp member with rfl | later
      · obtain ⟨draws, inside⟩ := @drawings_base (view names)
          (fun c => c.arranged.drawing (legend names)) (.mk box children)
          (fun leaf => own.kept.leaf (.inr (.inr leaf))) ownPlaced (below inner innerPlaced)
        rw [view, Node.drawing_arranged, childViews_eq_map]
        -- As a layer it is not taken for the line of a flow, since it has its offset.
        have modified : layer = true → (base (.mk box children)
            (children.map fun c => (c, view names c))).modifiers ++ modifiers (.mk box children) ≠
              [] :=
          fun inLayers => List.append_ne_nil_of_right_ne_nil _ (modifiers_ne_nil (absolute inLayers))
        refine (View.drawings_figure draws modified _ _).trans ?_
        exact congrArg (fun drawn => [Drawing.mk _ _ drawn]) inside
      · exact after others othersPlaced n later layer absolute

theorem drawings_forestView (names : Bool) {forest : List Node}
    (formed : ∀ n ∈ Node.preorderList forest, n.WellFormed)
    (placed : ∀ n ∈ Node.preorderList forest, n.box.layout.mode = .absolute →
      ∀ c ∈ n.children, c.isAbsolute = true) :
    (forestView names forest).drawings false =
      Node.drawings (legend names) (Node.arrangedAll forest) := by
  have each := drawings_view names forest formed placed
  have all : View.listDrawings false (forest.map (view names)) =
      forest.map fun n => n.arranged.drawing (legend names) :=
    listDrawings_map fun n member => each n member false fun never => nomatch never
  rw [Node.drawings_eq_map, Node.arrangedAll_eq_map, List.map_map]
  refine Eq.trans ?_ all
  unfold forestView
  split
  · rename_i only single
    rw [single, View.listDrawings, View.listDrawings, List.append_nil]
  · have other : "VStack(alignment: .leading)" ≠ "Spacer()" := by decide
    rw [View.group, View.drawings, if_neg other, if_pos (.inl rfl)]

end Handoff.Swift
