import Handoff.Json.Printer
import Handoff.Proofs.Json.Numbers

/-!
The layouts of the printer.

Both layouts are one, but for the blanks between tokens: `Spacing.text` is the text of a value
with given blanks, `compact_toList` and `prettyAt_toList` say which blanks the two layouts have.
-/

namespace Handoff.Json

/-- How tokens are set apart: the blanks in front of an item or field at a depth, and those
behind a colon. -/
structure Spacing where
  gap : Nat → List Char
  colon : List Char

/-- Texts separated by commas, with blanks in front of each. -/
def listed (gap : List Char) : List (List Char) → List Char
  | [] => []
  | [text] => gap ++ text
  | text :: next :: rest => gap ++ text ++ ',' :: listed gap (next :: rest)

namespace Spacing

mutual

/-- The text of a value at a depth. -/
def text (s : Spacing) (depth : Nat) : Json → List Char
  | arr [] => ['[', ']']
  | arr items =>
    '[' :: (listed (s.gap (depth + 1)) (s.itemTexts (depth + 1) items) ++ (s.gap depth ++ [']']))
  | obj [] => ['\x7b', '\x7d']
  | obj fields =>
    '\x7b' ::
      (listed (s.gap (depth + 1)) (s.fieldTexts (depth + 1) fields) ++ (s.gap depth ++ ['\x7d']))
  | scalar => ((scalarText? scalar).getD "").toList

/-- The texts of the items of an array. -/
def itemTexts (s : Spacing) (depth : Nat) : List Json → List (List Char)
  | [] => []
  | item :: rest => s.text depth item :: s.itemTexts depth rest

/-- The texts of the fields of an object. -/
def fieldTexts (s : Spacing) (depth : Nat) : List (String × Json) → List (List Char)
  | [] => []
  | (name, value) :: rest =>
    ((quoted name).toList ++ ':' :: (s.colon ++ s.text depth value)) :: s.fieldTexts depth rest

end

/-- No space at all. -/
def compact : Spacing := ⟨fun _ => [], []⟩

/-- One item or field a line. -/
def pretty : Spacing := ⟨fun depth => (newLine depth).toList, [' ']⟩

/-- The text of a field at a depth. -/
def fieldText (s : Spacing) (depth : Nat) (field : String × Json) : List Char :=
  (quoted field.1).toList ++ ':' :: (s.colon ++ s.text depth field.2)

variable {s : Spacing} {depth : Nat}

theorem itemTexts_eq (items : List Json) : s.itemTexts depth items = items.map (s.text depth) := by
  induction items with
  | nil => rfl
  | cons item rest ih => rw [itemTexts, ih, List.map_cons]

theorem fieldTexts_eq (fields : List (String × Json)) :
    s.fieldTexts depth fields = fields.map (s.fieldText depth) := by
  induction fields with
  | nil => rfl
  | cons field rest ih => rw [fieldTexts, ih, List.map_cons]; rfl

theorem text_arr {items : List Json} (present : items ≠ []) : s.text depth (arr items) =
    '[' :: (listed (s.gap (depth + 1)) (items.map (s.text (depth + 1))) ++
      (s.gap depth ++ [']'])) := by
  cases items with
  | nil => exact absurd rfl present
  | cons item rest => rw [text, itemTexts_eq]; simp

theorem text_obj {fields : List (String × Json)} (present : fields ≠ []) :
    s.text depth (obj fields) = '\x7b' ::
      (listed (s.gap (depth + 1)) (fields.map (s.fieldText (depth + 1))) ++
        (s.gap depth ++ ['\x7d'])) := by
  cases fields with
  | nil => exact absurd rfl present
  | cons field rest => rw [text, fieldTexts_eq]; simp

theorem text_scalar {s : Spacing} {depth : Nat} {json : Json}
    (noArray : ∀ items, json ≠ arr items) (noObject : ∀ fields, json ≠ obj fields) :
    s.text depth json = ((scalarText? json).getD "").toList := by
  cases json <;> first | rfl | exact absurd rfl (noArray _) | exact absurd rfl (noObject _)

/-- Texts put together with commas between them, whatever they are the texts of. -/
theorem toList_eq_listed {α : Type} {join : List α → String} {gap : List Char}
    {text : α → List Char} {items : List α} (nil : join [] = "")
    (single : ∀ a ∈ items, (join [a]).toList = gap ++ text a)
    (more : ∀ a ∈ items, ∀ b rest,
      (join (a :: b :: rest)).toList = gap ++ text a ++ ',' :: (join (b :: rest)).toList) :
    (join items).toList = listed gap (items.map text) := by
  induction items with
  | nil => exact congrArg String.toList nil
  | cons a items ih =>
      obtain ⟨own, others⟩ := List.forall_mem_cons.mp single
      obtain ⟨further, later⟩ := List.forall_mem_cons.mp more
      cases items with
      | nil => exact own
      | cons b rest =>
          rw [further, ih others later]
          rfl

theorem compactItems_toList {items : List Json} {depth : Nat}
    (each : ∀ item ∈ items, item.compact.toList = compact.text depth item) :
    (compactItems items).toList = listed [] (items.map (compact.text depth)) := by
  refine toList_eq_listed rfl (fun item member => ?_) fun item member next rest => ?_
  · simp [compactItems, each item member]
  · simp [compactItems, each item member]

theorem compactFields_toList {fields : List (String × Json)} {depth : Nat}
    (each : ∀ field ∈ fields, field.2.compact.toList = compact.text depth field.2) :
    (compactFields fields).toList = listed [] (fields.map (compact.fieldText depth)) := by
  refine toList_eq_listed rfl (fun field member => ?_) fun field member next rest => ?_
  · simp [compactFields, each field member, fieldText, compact]
  · simp [compactFields, each field member, fieldText, compact]

/-- The compact layout is the one without space. -/
theorem compact_toList (json : Json) : ∀ depth, json.compact.toList = compact.text depth json := by
  induction json using valueInduction with
  | scalar json noArray noObject =>
      intro depth
      rw [text_scalar noArray noObject]
      cases json <;> first | rfl | exact absurd rfl (noArray _) | exact absurd rfl (noObject _)
  | array items each =>
      intro depth
      cases items with
      | nil => rfl
      | cons item rest =>
          have inner := compactItems_toList fun item member => each item member (depth + 1)
          rw [Json.compact, text_arr (by simp), String.toList_append, String.toList_append, inner]
          simp [compact]
  | object fields each =>
      intro depth
      cases fields with
      | nil => rfl
      | cons field rest =>
          have inner := compactFields_toList fun field member => each field member (depth + 1)
          rw [Json.compact, text_obj (by simp), String.toList_append, String.toList_append, inner]
          simp [compact]

theorem prettyItems_toList {items : List Json} {depth : Nat}
    (each : ∀ item ∈ items, (prettyAt depth item).toList = pretty.text depth item) :
    (prettyItems depth items).toList =
      listed (newLine depth).toList (items.map (pretty.text depth)) := by
  refine toList_eq_listed rfl (fun item member => ?_) fun item member next rest => ?_
  · simp [prettyItems, each item member]
  · simp [prettyItems, each item member]

theorem prettyFields_toList {fields : List (String × Json)} {depth : Nat}
    (each : ∀ field ∈ fields, (prettyAt depth field.2).toList = pretty.text depth field.2) :
    (prettyFields depth fields).toList =
      listed (newLine depth).toList (fields.map (pretty.fieldText depth)) := by
  refine toList_eq_listed rfl (fun field member => ?_) fun field member next rest => ?_
  · simp [prettyFields, each field member, fieldText, pretty]
  · simp [prettyFields, each field member, fieldText, pretty]

/-- The pretty layout is the one with an item or field a line. -/
theorem prettyAt_toList (json : Json) : ∀ depth,
    (prettyAt depth json).toList = pretty.text depth json := by
  induction json using valueInduction with
  | scalar json noArray noObject =>
      intro depth
      rw [text_scalar noArray noObject]
      cases json <;> first | rfl | exact absurd rfl (noArray _) | exact absurd rfl (noObject _)
  | array items each =>
      intro depth
      cases items with
      | nil =>
          rw [prettyAt, text]
          rfl
      | cons item rest =>
          have inner := prettyItems_toList fun item member => each item member (depth + 1)
          rw [prettyAt, text_arr (by simp)]
          · simp [inner, pretty]
          · exact nofun
  | object fields each =>
      intro depth
      cases fields with
      | nil =>
          rw [prettyAt, text]
          rfl
      | cons field rest =>
          have inner := prettyFields_toList fun field member => each field member (depth + 1)
          rw [prettyAt, text_obj (by simp)]
          · simp [inner, pretty]
          · exact nofun

end Spacing

end Handoff.Json
