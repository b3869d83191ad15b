import Handoff.Template.Rendering

/-!
What a template gives, part by part.

`Gives parts scope text` says that parts are rendered in a scope, to the given text.  There is
one lemma for each kind of part that a scaffold has; a block is rendered whatever its body gives
for the items it repeats over, so nothing in the data of a scaffold can make it fail.
-/

namespace Handoff.Template

/-- Parts are rendered in a scope, to the given text. -/
def Gives (parts : List Part) (scope : Json) (text : String) : Prop :=
  renderParts? parts scope = some text

/-- A template whose parts are known gives what they give. -/
theorem render?_of_read {template : String} {parts : List Part} {data : Json} {text : String}
    (read : read? template = some parts) (gives : Gives parts data text) :
    render? template data = some text := by
  unfold render?
  rw [read]
  exact gives

theorem Gives.of_eq {parts : List Part} {scope : Json} {text same : String}
    (gives : Gives parts scope text) (eq : text = same) : Gives parts scope same :=
  eq ▸ gives

section

variable {scope : Json} {rest : List Part} {more : String}

theorem Gives.nil : Gives [] scope "" := by
  unfold Gives
  rw [renderParts?]

/-- The text of a part, then that of the parts after it. -/
theorem Gives.cons {part : Part} {text : String} (first : renderPart? part scope = some text)
    (others : Gives rest scope more) : Gives (part :: rest) scope (text ++ more) := by
  unfold Gives at *
  rw [renderParts?, first, others]
  rfl

theorem Gives.text (content : String) (others : Gives rest scope more) :
    Gives (.text content :: rest) scope (content ++ more) :=
  .cons (by rw [renderPart?]) others

/-- A string of the data is written as it is, whatever characters it has. -/
theorem Gives.string {operand : Operand} {s : String}
    (found : operand.value? scope = some (.str s)) (others : Gives rest scope more) :
    Gives (.value operand :: rest) scope (s ++ more) := by
  refine .cons ?_ others
  rw [renderPart?, found, Option.elim, valueText]

/-- A string of the data with its lines moved to the right. -/
theorem Gives.indent {operand width : Operand} {s : String} {n : Nat}
    (found : operand.value? scope = some (.str s))
    (told : (width.value? scope).bind (Json.natUpTo? (UInt64.size - 1)) = some n)
    (others : Gives rest scope more) :
    Gives (.call "indent" [operand, width] :: rest) scope (Text.indent n s ++ more) := by
  have asText : operand.text scope = s := by
    unfold Operand.text
    rw [found]
    rfl
  have helper : Helper.ofName? "indent" = some .indent := rfl
  refine .cons ?_ others
  rw [renderPart?, helper]
  simp only [Option.map_some, Helper.apply, List.getElem?_cons_zero, List.getElem?_cons_succ,
    Option.getD_some, Option.bind_some, asText, told]

/-- A block that is there only if a switch is on. -/
theorem Gives.cond {operand : Operand} {switch : Bool} {body : List Part} {text : String}
    (found : operand.value? scope = some (.bool switch)) (inner : Gives body scope text)
    (others : Gives rest scope more) :
    Gives (.block "if" [operand] body [] :: rest) scope
      ((if switch then text else "") ++ more) := by
  have block : Block.ofName? "if" = some .cond := rfl
  refine .cons ?_ others
  rw [renderPart?, block]
  simp only [List.head?_cons, Option.bind_eq_bind, Option.bind_some, found, Option.getD_some,
    isTruthy]
  cases switch with
  | false => exact (Gives.nil : Gives [] scope "")
  | true => exact inner

/-- The bodies of a block one after another. -/
theorem mapM_gives {α : Type} {body : List Part} {encode : α → Json} {write : α → String}
    (inner : ∀ a, Gives body (encode a) (write a)) : ∀ items : List α,
      ((items.map encode).mapM fun value => renderParts? body value) = some (items.map write)
  | [] => rfl
  | a :: items => by
      have first : renderParts? body (encode a) = some (write a) := inner a
      rw [List.map_cons, List.mapM_cons, first, mapM_gives inner items]
      rfl

/-- A block that is repeated for each item of a list. -/
theorem Gives.each {α : Type} {operand : Operand} {items : List α} {encode : α → Json}
    {body : List Part} {write : α → String}
    (found : operand.value? scope = some (Json.ofList encode items))
    (inner : ∀ a, Gives body (encode a) (write a)) (others : Gives rest scope more) :
    Gives (.block "each" [operand] body [] :: rest) scope
      (String.join (items.map write) ++ more) := by
  have block : Block.ofName? "each" = some .each := rfl
  have bodies := mapM_gives inner items
  refine .cons ?_ others
  rw [renderPart?, block]
  simp only [List.head?_cons, Option.bind_eq_bind, Option.bind_some, found, Option.getD_some,
    Json.ofList, members]
  cases items with
  | nil => exact (Gives.nil : Gives [] scope "")
  | cons a items =>
      rw [List.map_cons] at bodies ⊢
      simp only [bodies]
      rfl

end

end Handoff.Template
