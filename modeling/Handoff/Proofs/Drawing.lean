import Handoff.Markup.Element
import Handoff.Proofs.Design.Arrangement
import Handoff.Proofs.Emission

/-!
What the code of a target draws.

The trees that targets make of a design are of three kinds and full of wrappers.  A `Drawing` is
what is left of such a tree when it is read without regard to how it came about: texts, images
and boxes, each under its label, with what is drawn inside it.  `Node.drawing` is the drawing
that a design asks for.

Markup draws the design as it is (`Markup.drawing_elementsOf`).
-/

namespace Handoff

open Design (Box Node)

/-- What is drawn at a place. -/
inductive Figure where
  | text (content : String)
  | image
  | box
deriving DecidableEq, Repr

/-- The content of a text. -/
def Figure.text? : Figure → Option String
  | text content => some content
  | image | box => none

/-- A figure with what is drawn inside it. -/
inductive Drawing where
  | mk (label : Option String) (figure : Figure) (inside : List Drawing)

namespace Drawing

/-- A drawing under another label. -/
def labelled (label : String) : Drawing → Drawing
  | mk _ figure inside => mk (some label) figure inside

mutual

/-- The figures of a drawing with their labels, read from left to right. -/
def entries : Drawing → List (Option String × Figure)
  | mk label figure inside => (label, figure) :: listEntries inside

/-- The figures of drawings one after another. -/
def listEntries : List Drawing → List (Option String × Figure)
  | [] => []
  | d :: rest => d.entries ++ listEntries rest

end

/-- The texts of drawings, read from left to right. -/
def texts (drawings : List Drawing) : List String :=
  (listEntries drawings).filterMap (·.2.text?)

end Drawing

/-! ## Drawings of designs -/

/-- How a target draws a box. -/
structure Legend where
  label : Box → Option String
  figure : Box → Figure

/-- The figure of a box whose text is written in the given way. -/
def Figure.ofBox (write : Design.TextStyle → String) (b : Box) : Figure :=
  match b.style.text with
  | some t => text (write t)
  | none => if b.kind = .image then image else box

namespace Figure

variable {write : Design.TextStyle → String} {b : Box}

theorem ofBox_text {t : Design.TextStyle} (style : b.style.text = some t) :
    ofBox write b = text (write t) := by
  rw [ofBox, style]

theorem ofBox_image (style : b.style.text = none) (kind : b.kind = .image) :
    ofBox write b = image := by
  rw [ofBox, style]
  exact if_pos kind

theorem ofBox_box (style : b.style.text = none) (kind : b.kind ≠ .image) :
    ofBox write b = box := by
  rw [ofBox, style]
  exact if_neg kind

theorem text?_ofBox : (ofBox write b).text? = b.style.text.map write := by
  cases style : b.style.text with
  | some t =>
      rw [ofBox_text style]
      rfl
  | none =>
      by_cases kind : b.kind = .image
      · rw [ofBox_image style kind]
        rfl
      · rw [ofBox_box style kind]
        rfl

end Figure

namespace Design

mutual

/-- The drawing of a node, with those of its children inside. -/
def Node.drawing (legend : Legend) : Node → Drawing
  | .mk box children => .mk (legend.label box) (legend.figure box) (Node.drawings legend children)

/-- The drawings of nodes in turn. -/
def Node.drawings (legend : Legend) : List Node → List Drawing
  | [] => []
  | n :: rest => n.drawing legend :: Node.drawings legend rest

end

theorem Node.drawings_eq_map (legend : Legend) (nodes : List Node) :
    Node.drawings legend nodes = nodes.map (Node.drawing legend) := by
  induction nodes with
  | nil => rfl
  | cons n rest ih => rw [Node.drawings, ih, List.map_cons]

theorem Node.drawing_arranged (legend : Legend) (box : Box) (children : List Node) :
    (Node.mk box children).arranged.drawing legend =
      .mk (legend.label box) (legend.figure box)
        ((box.lineUp children).map fun c => c.arranged.drawing legend) := by
  have kept := Node.children_arranged (.mk box children)
  rw [Node.arranged] at kept ⊢
  rw [Node.drawing, Node.drawings_eq_map, show box.lineUp (Node.arrangedAll children) =
    (box.lineUp children).map Node.arranged from kept, List.map_map]
  rfl

/-- A drawing has one figure for each node, in preorder. -/
theorem Node.listEntries_drawings (legend : Legend) (forest : List Node) :
    Drawing.listEntries (Node.drawings legend forest) =
      (Node.preorderList forest).map fun n => (legend.label n.box, legend.figure n.box) := by
  induction forest using Node.forestInduction with
  | nil => rfl
  | cons box children rest below after =>
      rw [Node.drawings, Node.drawing, Drawing.listEntries, Drawing.entries,
        Node.preorderList_mk_cons, List.map_cons, List.map_append, below, after]
      rfl

theorem Node.texts_drawings (label : Box → Option String) (write : TextStyle → String)
    (forest : List Node) :
    Drawing.texts (Node.drawings ⟨label, Figure.ofBox write⟩ forest) =
      (Node.preorderList forest).filterMap fun n => n.box.style.text.map write := by
  rw [Drawing.texts, Node.listEntries_drawings, List.filterMap_map]
  exact List.filterMap_congr fun n _ => Figure.text?_ofBox

end Design

/-! ## Markup -/

namespace Markup

mutual

/-- What an element draws. -/
def Element.drawing : Element → Drawing
  | .image comment _ => .mk comment .image []
  | .text comment _ characters => .mk comment (.text characters) []
  | .box comment _ children => .mk comment .box (Element.drawings children)

/-- What elements draw in turn. -/
def Element.drawings : List Element → List Drawing
  | [] => []
  | e :: rest => e.drawing :: Element.drawings rest

end

/-- How markup draws boxes. -/
def legend (comments : Bool) : Legend :=
  ⟨commentOf comments, Figure.ofBox (·.characters)⟩

/-- Markup draws well-formed nodes as they are. -/
theorem drawing_elementsOf (attributes : Attributes) (comments : Bool) (forest : List Node) :
    ∀ parent : Option Node, (∀ n ∈ Node.preorderList forest, n.WellFormed) →
      Element.drawings (elementsOf attributes comments parent forest) =
        Node.drawings (legend comments) forest := by
  induction forest using Node.forestInduction with
  | nil =>
      intro parent _
      rfl
  | cons box children rest below after =>
      intro parent formed
      obtain ⟨own, inner, others⟩ := Node.forall_preorderList_mk_cons.mp formed
      have first : (elementOf attributes comments parent (.mk box children)).drawing =
          Node.drawing (legend comments) (.mk box children) := by
        -- The elements of texts and images hold nothing, and nor do the nodes.
        have leaf : isLeaf box = true → children = [] := fun leaf => own.kept.leaf (.inl leaf)
        rw [Node.drawing, elementOf]
        cases style : box.style.text with
        | some t =>
            have kind : box.kind = .text := own.box.text_iff.mp (by
              rw [show (Node.mk box children).box.style.text = some t from style]
              rfl)
            rw [leaf (by rw [isLeaf, style, Option.isSome_some, Bool.or_true]),
              show (legend comments).figure box = .text t.characters from
                Figure.ofBox_text style]
            simp [kind, Box.characters?, style, Element.drawing, Node.drawings, legend]
        | none =>
            by_cases image : box.kind = .image
            · rw [leaf (by rw [isLeaf, image]; rfl),
                show (legend comments).figure box = .image from Figure.ofBox_image style image]
              simp [image, Element.drawing, Node.drawings, legend]
            · rw [show (legend comments).figure box = .box from Figure.ofBox_box style image,
                ← below (some (.mk box children)) inner]
              simp [image, Box.characters?, style, Element.drawing, legend]
      rw [elementsOf, Element.drawings, Node.drawings, first, after parent others]

end Markup

end Handoff
