import Handoff.Proofs.Json.Numbers
import Handoff.Proofs.Json.Spacing
import Handoff.Proofs.Json.Tokens

/-!
JSON text read back.

What the printer writes, the reader reads as the same value, but for the numbers: each of them
is read as whatever its own text is read as (`reread`).  That takes objects whose names are
distinct, since of two fields of one name the reader keeps one, and values that nest no deeper
than the reader goes.

The main statements are `read?_compact` and `read?_pretty`, for the two layouts of the printer, and
`roundTrip_of_restored`, which takes them on to what is decoded.
-/

namespace Handoff.Json

/-! ## Blanks -/

/-- Nothing but blanks. -/
def Blank (cs : List Char) : Prop :=
  ∀ c ∈ cs, isSpace c = true

section

variable {gap after rest : List Char} {c : Char}

theorem skipSpace_append (blank : Blank gap) (cs : List Char) :
    skipSpace (gap ++ cs) = skipSpace cs := by
  induction gap with
  | nil => rfl
  | cons c gap ih =>
      obtain ⟨own, others⟩ := List.forall_mem_cons.mp blank
      rw [List.cons_append, skipSpace, List.dropWhile_cons_of_pos own]
      exact ih others

theorem skipSpace_cons (other : isSpace c = false) (cs : List Char) :
    skipSpace (c :: cs) = c :: cs :=
  List.dropWhile_cons_of_neg (by rw [other]; exact Bool.false_ne_true)

@[simp] theorem skipSpace_skipSpace (cs : List Char) : skipSpace (skipSpace cs) = skipSpace cs := by
  induction cs with
  | nil => rfl
  | cons c cs ih =>
      cases blank : isSpace c with
      | true =>
          have skipped : skipSpace (c :: cs) = skipSpace cs := List.dropWhile_cons_of_pos blank
          rw [skipped, ih]
      | false => rw [skipSpace_cons blank, skipSpace_cons blank]

/-- No number goes on with what ends an item or a field. -/
theorem stops_cons (mark : c = ',' ∨ c = ']' ∨ c = '\x7d') : Stops (c :: rest) := by
  rintro d ⟨rfl⟩
  rcases mark with rfl | rfl | rfl <;> decide

theorem stops_of_isSpace (blank : isSpace c = true) : Stops (c :: rest) := by
  rintro d ⟨rfl⟩
  simp only [isSpace, Bool.or_eq_true, beq_iff_eq] at blank
  rcases blank with ((rfl | rfl) | rfl) | rfl <;> decide

theorem stops_append (blank : Blank after) (mark : c = ',' ∨ c = ']' ∨ c = '\x7d') :
    Stops (after ++ c :: rest) := by
  cases after with
  | nil => exact stops_cons mark
  | cons d after => exact stops_of_isSpace (blank d List.mem_cons_self)

end

/-! ## Items and fields -/

/-- A step reads a text as a value, whatever comes behind it; the text begins like a value. -/
structure Reads (value : Step Json) (text : List Char) (json : Json) : Prop where
  starts : ∃ c tail, text = c :: tail ∧ isSpace c = false ∧ c ≠ ']'
  read : ∀ {rest : List Char}, Stops rest → value (text ++ rest) = some (json, rest)

theorem Reads.skipSpace {value : Step Json} {text : List Char} {json : Json}
    (reads : Reads value text json) (rest : List Char) :
    Json.skipSpace (text ++ rest) = text ++ rest := by
  obtain ⟨c, tail, rfl, plain, -⟩ := reads.starts
  exact skipSpace_cons plain _

/-- The blanks of a layout are blanks. -/
structure Spacing.IsBlank (s : Spacing) : Prop where
  gap : ∀ depth, Blank (s.gap depth)
  colon : Blank s.colon

section

variable {value : Step Json} {s : Spacing} {depth : Nat} {after : List Char} {again : Json → Json}

/-- Items with commas between them are read one by one, up to the bracket behind them. -/
theorem items_listed (blank : s.IsBlank) (behind : Blank after) (rest : List Char) {item : Json}
    {others : List Json} (each : ∀ i ∈ item :: others, Reads value (s.text depth i) (again i)) :
    ∀ {fuel : Nat} (acc : List Json), others.length < fuel →
      items value fuel acc
          (listed (s.gap depth) ((item :: others).map (s.text depth)) ++ (after ++ ']' :: rest)) =
        some (acc.reverse ++ (item :: others).map again, rest) := by
  induction others generalizing item with
  | nil =>
      intro fuel acc room
      obtain ⟨fuel, rfl⟩ := Nat.exists_eq_succ_of_ne_zero (by omega : fuel ≠ 0)
      have own := each item List.mem_cons_self
      have stop : Stops (after ++ ']' :: rest) := stops_append behind (.inr (.inl rfl))
      rw [List.map_singleton, listed, List.append_assoc, items, skipSpace_append (blank.gap _),
        own.skipSpace, own.read stop]
      simp only [Option.bind_eq_bind, Option.bind_some, skipSpace_append behind,
        skipSpace_cons (c := ']') rfl]
      simp
  | cons next others ih =>
      intro fuel acc room
      rw [List.length_cons] at room
      obtain ⟨fuel, rfl⟩ := Nat.exists_eq_succ_of_ne_zero (by omega : fuel ≠ 0)
      obtain ⟨own, later⟩ := List.forall_mem_cons.mp each
      have further := ih later (again item :: acc) (by omega : others.length < fuel)
      have stop : Stops (',' :: (listed (s.gap depth) ((next :: others).map (s.text depth)) ++
          (after ++ ']' :: rest))) := stops_cons (.inl rfl)
      rw [List.map_cons, List.map_cons, listed, ← List.map_cons, List.append_assoc,
        List.append_assoc, List.cons_append, items, skipSpace_append (blank.gap _), own.skipSpace,
        own.read stop]
      simp only [Option.bind_eq_bind, Option.bind_some, skipSpace_cons (c := ',') rfl]
      rw [further]
      simp

theorem put_of_notMem {name : String} {json : Json} {acc : List (String × Json)}
    (fresh : name ∉ acc.map (·.1)) : put acc name json = acc ++ [(name, json)] := by
  induction acc with
  | nil => rfl
  | cons field acc ih =>
      rw [List.map_cons, List.mem_cons, not_or] at fresh
      rw [put, if_neg (Ne.symm fresh.1), ih fresh.2, List.cons_append]

theorem skipSpace_fieldText (blank : s.IsBlank) (field : String × Json) (tail : List Char) :
    skipSpace (s.gap depth ++ (s.fieldText depth field ++ tail)) =
      '"' :: (field.1.toList.flatMap escape ++
        '"' :: ':' :: (s.colon ++ (s.text depth field.2 ++ tail))) := by
  rw [skipSpace_append (blank.gap _), Spacing.fieldText, toList_quoted]
  simp only [List.cons_append, List.append_assoc, List.nil_append]
  exact skipSpace_cons rfl _

section

variable {size : Nat} {field : String × Json} {tail rest : List Char} (blank : s.IsBlank)
  (stop : Stops tail) (room : (quoted field.1).toList.length ≤ size)
  (reads : Reads value (s.text depth field.2) (again field.2)) (fuel : Nat)
  (acc : List (String × Json))

include blank stop room reads

/-- A field with a comma behind it is read, and the next one after it. -/
theorem fields_comma (behind : skipSpace tail = ',' :: rest) :
    fields size value (fuel + 1) acc (s.gap depth ++ (s.fieldText depth field ++ tail)) =
      fields size value fuel (put acc field.1 (again field.2)) rest := by
  rw [fields, skipSpace_fieldText blank]
  simp only [string_quoted room, Option.bind_eq_bind, Option.bind_some,
    skipSpace_cons (c := ':') rfl, skipSpace_append blank.colon, reads.skipSpace, reads.read stop,
    behind]

/-- A field with a brace behind it is the last one. -/
theorem fields_brace (behind : skipSpace tail = '\x7d' :: rest) :
    fields size value (fuel + 1) acc (s.gap depth ++ (s.fieldText depth field ++ tail)) =
      some (put acc field.1 (again field.2), rest) := by
  rw [fields, skipSpace_fieldText blank]
  simp only [string_quoted room, Option.bind_eq_bind, Option.bind_some,
    skipSpace_cons (c := ':') rfl, skipSpace_append blank.colon, reads.skipSpace, reads.read stop,
    behind]

end

/-- Fields with commas between them are read one by one, up to the brace behind them. -/
theorem fields_listed {size : Nat} (blank : s.IsBlank) (behind : Blank after) (rest : List Char)
    {field : String × Json} {others : List (String × Json)}
    (each : ∀ f ∈ field :: others, (quoted f.1).toList.length ≤ size ∧
      Reads value (s.text depth f.2) (again f.2)) :
    ∀ {fuel : Nat} (acc : List (String × Json)), others.length < fuel →
      ((acc ++ field :: others).map (·.1)).Nodup →
      fields size value fuel acc
          (listed (s.gap depth) ((field :: others).map (s.fieldText depth)) ++
            (after ++ '\x7d' :: rest)) =
        some (acc ++ (field :: others).map fun f => (f.1, again f.2), rest) := by
  have fresh {field : String × Json} {others acc : List (String × Json)}
      (distinct : ((acc ++ field :: others).map (·.1)).Nodup) : field.1 ∉ acc.map (·.1) := by
    rw [List.map_append, List.nodup_append] at distinct
    exact fun member => distinct.2.2 _ member _ List.mem_cons_self rfl
  induction others generalizing field with
  | nil =>
      intro fuel acc room distinct
      obtain ⟨fuel, rfl⟩ := Nat.exists_eq_succ_of_ne_zero (by omega : fuel ≠ 0)
      obtain ⟨short, own⟩ := each field List.mem_cons_self
      have last : skipSpace (after ++ '\x7d' :: rest) = '\x7d' :: rest := by
        rw [skipSpace_append behind, skipSpace_cons rfl]
      rw [List.map_singleton, listed, List.append_assoc, fields_brace blank
        (stops_append behind (.inr (.inr rfl))) short own fuel acc last,
        put_of_notMem (fresh distinct)]
      rfl
  | cons next others ih =>
      intro fuel acc room distinct
      rw [List.length_cons] at room
      obtain ⟨fuel, rfl⟩ := Nat.exists_eq_succ_of_ne_zero (by omega : fuel ≠ 0)
      obtain ⟨⟨short, own⟩, later⟩ := List.forall_mem_cons.mp each
      have further := ih later (acc ++ [(field.1, again field.2)])
        (by omega : others.length < fuel) (by simpa using distinct)
      rw [List.map_cons, List.map_cons, listed, ← List.map_cons, List.append_assoc,
        List.append_assoc, List.cons_append, fields_comma blank
        (stops_cons (.inl rfl)) short own fuel acc (skipSpace_cons rfl _),
        put_of_notMem (fresh distinct)]
      refine further.trans ?_
      simp

end

/-! ## Values -/

/-- What the text of a number is read as. -/
def reprinted? (number : Json) : Option Json :=
  (scalarText? number).bind fun text =>
    match Json.number text.toList with
    | some (again, []) => some again
    | _ => none

/-- What stands in the place of a number that was written and read; infinities and NaN are
written as `null`. -/
def reprinted (number : Json) : Json :=
  (reprinted? number).getD null

/-- A value as it is read back. -/
def reread : Json → Json :=
  mapNumbers reprinted

/-- The texts of all numbers are numbers. -/
def Legible (json : Json) : Prop :=
  ∀ number ∈ json.numbers, (reprinted? number).isSome = true

mutual

/-- How deep arrays and objects nest. -/
def depth : Json → Nat
  | arr items => itemsDepth items + 1
  | obj fields => fieldsDepth fields + 1
  | _ => 0

/-- How deep arrays and objects nest in the items of an array. -/
def itemsDepth : List Json → Nat
  | [] => 0
  | item :: rest => max item.depth (itemsDepth rest)

/-- How deep arrays and objects nest in the fields of an object. -/
def fieldsDepth : List (String × Json) → Nat
  | [] => 0
  | (_, value) :: rest => max value.depth (fieldsDepth rest)

end

theorem itemsDepth_le {items : List Json} {limit : Nat} :
    itemsDepth items ≤ limit ↔ ∀ item ∈ items, item.depth ≤ limit := by
  induction items with
  | nil => simp [itemsDepth]
  | cons item rest ih => rw [itemsDepth, Nat.max_le, ih, List.forall_mem_cons]

theorem fieldsDepth_le {fields : List (String × Json)} {limit : Nat} :
    fieldsDepth fields ≤ limit ↔ ∀ field ∈ fields, field.2.depth ≤ limit := by
  induction fields with
  | nil => simp [fieldsDepth]
  | cons field rest ih => rw [fieldsDepth, Nat.max_le, ih, List.forall_mem_cons]

theorem length_le_listed (gap : List Char) {text : List Char} {texts : List (List Char)}
    (member : text ∈ texts) :
    text.length ≤ (listed gap texts).length := by
  fun_induction listed gap texts with
  | case1 => cases member
  | case2 only =>
      rw [List.mem_singleton.mp member, List.length_append]
      omega
  | case3 first next rest ih =>
      simp only [List.length_append, List.length_cons]
      rcases List.mem_cons.mp member with rfl | later
      · omega
      · have := ih later
        omega

theorem length_le_length_listed (gap : List Char) (texts : List (List Char)) :
    texts.length ≤ (listed gap texts).length + 1 := by
  fun_induction listed gap texts with
  | case1 => exact Nat.zero_le _
  | case2 only => simp
  | case3 first next rest ih =>
      simp only [List.length_append, List.length_cons] at ih ⊢
      omega

theorem listed_cons (gap text : List Char) (rest : List (List Char)) :
    ∃ more, listed gap (text :: rest) = gap ++ (text ++ more) := by
  cases rest with
  | nil => exact ⟨[], by rw [listed, List.append_nil]⟩
  | cons next rest => exact ⟨_, by rw [listed, List.append_assoc]⟩

section

variable {size limit : Nat}

theorem reads_number {text : List Char} {json : Json} (read : number text = some (json, [])) :
    Reads (value size limit) text json := by
  obtain ⟨c, tail, rfl, first⟩ := head_of_number read
  refine ⟨⟨c, tail, rfl, ?_, ?_⟩, fun stop => ?_⟩
  · rcases first with rfl | digit
    · rfl
    · cases blank : isSpace c with
      | false => rfl
      | true =>
          have stop : Stops [c] := stops_of_isSpace blank
          rw [(stop c rfl).1] at digit
          cases digit
  · rintro rfl
    rcases first with minus | digit
    · exact absurd minus (by decide)
    · exact absurd digit (by decide)
  · rw [List.cons_append, value_number first]
    exact number_append stop read

theorem reads_str (text : String) (room : (quoted text).toList.length ≤ size) :
    Reads (value size limit) (quoted text).toList (str text) := by
  rw [toList_quoted]
  refine ⟨⟨'"', _, rfl, rfl, by decide⟩, fun {rest} _ => ?_⟩
  rw [List.cons_append, List.append_assoc, List.singleton_append, value,
    string_quoted room]
  rfl

theorem literal_append (word : List Char) (json : Json) (rest : List Char) :
    literal word json (word ++ rest) = some (json, rest) := by
  simp [literal]

/-- The text of a number is read as what it is read as on its own. -/
theorem reads_scalarText {json : Json} (legible : (reprinted? json).isSome = true) :
    Reads (value size limit) ((scalarText? json).getD "").toList (reprinted json) := by
  obtain ⟨again, found⟩ := Option.isSome_iff_exists.mp legible
  obtain ⟨text, printed, read⟩ := Option.bind_eq_some_iff.mp found
  rw [printed, reprinted, found]
  refine reads_number ?_
  split at read
  · rename_i own
    cases read
    exact own
  · cases read

/-- A scalar is read from its text. -/
theorem reads_scalar {json : Json} (noArray : ∀ items, json ≠ arr items)
    (noObject : ∀ fields, json ≠ obj fields) (legible : json.Legible)
    (room : ((scalarText? json).getD "").toList.length ≤ size) :
    Reads (value size limit) ((scalarText? json).getD "").toList json.reread := by
  cases json with
  | null =>
      refine ⟨⟨'n', _, rfl, rfl, by decide⟩, fun {rest} _ => ?_⟩
      show value size limit ('n' :: 'u' :: 'l' :: 'l' :: rest) = _
      rw [value]
      exact literal_append ['n', 'u', 'l', 'l'] null rest
  | bool b =>
      cases b with
      | true =>
          refine ⟨⟨'t', _, rfl, rfl, by decide⟩, fun {rest} _ => ?_⟩
          show value size limit ('t' :: 'r' :: 'u' :: 'e' :: rest) = _
          rw [value]
          exact literal_append ['t', 'r', 'u', 'e'] (bool true) rest
      | false =>
          refine ⟨⟨'f', _, rfl, rfl, by decide⟩, fun {rest} _ => ?_⟩
          show value size limit ('f' :: 'a' :: 'l' :: 's' :: 'e' :: rest) = _
          rw [value]
          exact literal_append ['f', 'a', 'l', 's', 'e'] (bool false) rest
  | int n => exact reads_scalarText (legible _ List.mem_cons_self)
  | double x => exact reads_scalarText (legible _ List.mem_cons_self)
  | single x => exact reads_scalarText (legible _ List.mem_cons_self)
  | str text => exact reads_str text room
  | arr items => exact absurd rfl (noArray _)
  | obj fields => exact absurd rfl (noObject _)

theorem items_skipSpace (step : Step Json) (fuel : Nat) (acc : List Json) (cs : List Char) :
    items step fuel acc (skipSpace cs) = items step fuel acc cs := by
  cases fuel with
  | zero => rfl
  | succ fuel => rw [items, items, skipSpace_skipSpace]

theorem fields_skipSpace (step : Step Json) (fuel : Nat) (acc : List (String × Json))
    (cs : List Char) :
    fields size step fuel acc (skipSpace cs) = fields size step fuel acc cs := by
  cases fuel with
  | zero => rfl
  | succ fuel => rw [fields, fields, skipSpace_skipSpace]

/-- An array that does not end at once is read item by item. -/
theorem value_array {cs : List Char} (more : ∀ c ∈ (skipSpace cs).head?, c ≠ ']') :
    value size (limit + 1) ('[' :: cs) =
      (items (value size limit) size [] cs).map fun (xs, rest) => (arr xs, rest) := by
  rw [value, ← items_skipSpace]
  split
  · rename_i same
    exact absurd rfl (more _ (by rw [same]; rfl))
  · rfl

/-- An object that does not end at once is read field by field. -/
theorem value_object {cs : List Char} (more : ∀ c ∈ (skipSpace cs).head?, c ≠ '\x7d') :
    value size (limit + 1) ('\x7b' :: cs) =
      (fields size (value size limit) size [] cs).map fun (fs, rest) => (obj fs, rest) := by
  rw [value, ← fields_skipSpace]
  split
  · rename_i same
    exact absurd rfl (more _ (by rw [same]; rfl))
  · rfl

/-- An array is read from its text if its items are. -/
theorem reads_arr {s : Spacing} (blank : s.IsBlank) {level : Nat} {items : List Json}
    (room : (s.text level (arr items)).length < size)
    (each : ∀ i ∈ items, (s.text (level + 1) i).length < size →
      Reads (value size limit) (s.text (level + 1) i) i.reread) :
    Reads (value size (limit + 1)) (s.text level (arr items)) (arr items).reread := by
  cases items with
  | nil =>
      refine ⟨⟨'[', _, rfl, rfl, by decide⟩, fun {rest} _ => ?_⟩
      show value size (limit + 1) ('[' :: ']' :: rest) = _
      rw [value, skipSpace_cons rfl]
      rfl
  | cons item others =>
      rw [Spacing.text_arr (List.cons_ne_nil _ _)] at room ⊢
      simp only [List.length_cons, List.length_append] at room
      have own : ∀ i ∈ item :: others,
          Reads (value size limit) (s.text (level + 1) i) i.reread := by
        intro i member
        have short := length_le_listed (s.gap (level + 1))
          (List.mem_map_of_mem (f := s.text (level + 1)) member)
        exact each i member (by omega)
      have count := length_le_length_listed (s.gap (level + 1))
        ((item :: others).map (s.text (level + 1)))
      rw [List.length_map, List.length_cons] at count
      refine ⟨⟨'[', _, rfl, rfl, by decide⟩, fun {rest} _ => ?_⟩
      rw [List.cons_append, List.append_assoc, List.append_assoc, List.singleton_append,
        value_array, items_listed blank (blank.gap _) rest own [] (by omega)]
      · rw [reread, mapNumbers, mapItems_eq]
        rfl
      · -- The first item is no bracket.
        have first := own item List.mem_cons_self
        obtain ⟨c, tail, same, -, other⟩ := first.starts
        obtain ⟨more, start⟩ := listed_cons (s.gap (level + 1)) (s.text (level + 1) item)
          (others.map (s.text (level + 1)))
        rw [List.map_cons, start, List.append_assoc, List.append_assoc,
          skipSpace_append (blank.gap _), first.skipSpace, same]
        rintro d ⟨rfl⟩
        exact other

/-- An object is read from its text if its names are distinct and its values are read. -/
theorem reads_obj {s : Spacing} (blank : s.IsBlank) {level : Nat} {fields : List (String × Json)}
    (distinct : (fields.map (·.1)).Nodup) (room : (s.text level (obj fields)).length < size)
    (each : ∀ f ∈ fields, (s.text (level + 1) f.2).length < size →
      Reads (value size limit) (s.text (level + 1) f.2) f.2.reread) :
    Reads (value size (limit + 1)) (s.text level (obj fields)) (obj fields).reread := by
  cases fields with
  | nil =>
      refine ⟨⟨'\x7b', _, rfl, rfl, by decide⟩, fun {rest} _ => ?_⟩
      show value size (limit + 1) ('\x7b' :: '\x7d' :: rest) = _
      rw [value, skipSpace_cons rfl]
      rfl
  | cons field others =>
      rw [Spacing.text_obj (List.cons_ne_nil _ _)] at room ⊢
      simp only [List.length_cons, List.length_append] at room
      have own : ∀ f ∈ field :: others, (quoted f.1).toList.length ≤ size ∧
          Reads (value size limit) (s.text (level + 1) f.2) f.2.reread := by
        intro f member
        have short := length_le_listed (s.gap (level + 1))
          (List.mem_map_of_mem (f := s.fieldText (level + 1)) member)
        simp only [Spacing.fieldText, List.length_append, List.length_cons] at short
        exact ⟨by omega, each f member (by omega)⟩
      have count := length_le_length_listed (s.gap (level + 1))
        ((field :: others).map (s.fieldText (level + 1)))
      rw [List.length_map, List.length_cons] at count
      refine ⟨⟨'\x7b', _, rfl, rfl, by decide⟩, fun {rest} _ => ?_⟩
      rw [List.cons_append, List.append_assoc, List.append_assoc, List.singleton_append,
        value_object, fields_listed blank (blank.gap _) rest own [] (by omega) distinct]
      · rw [reread, mapNumbers, mapFields_eq]
        rfl
      · -- The first field begins with the quote of its name.
        obtain ⟨more, start⟩ := listed_cons (s.gap (level + 1)) (s.fieldText (level + 1) field)
          (others.map (s.fieldText (level + 1)))
        rw [List.map_cons, start, List.append_assoc, List.append_assoc,
          skipSpace_append (blank.gap _), Spacing.fieldText, toList_quoted]
        simp only [List.cons_append]
        rw [skipSpace_cons rfl]
        rintro d ⟨rfl⟩
        decide

/-- The text of a value is read as the value with its numbers reread. -/
theorem reads_text {s : Spacing} (blank : s.IsBlank) (json : Json) : ∀ {level limit : Nat},
    json.WellNamed → json.Legible → json.depth ≤ limit → (s.text level json).length < size →
      Reads (value size limit) (s.text level json) json.reread := by
  induction json using valueInduction with
  | scalar json noArray noObject =>
      intro level limit _ legible _ room
      rw [Spacing.text_scalar noArray noObject] at room ⊢
      exact reads_scalar noArray noObject legible (by omega)
  | array items each =>
      intro level limit named legible shallow room
      obtain ⟨limit, rfl⟩ : ∃ k, limit = k + 1 := ⟨limit - 1, by rw [depth] at shallow; omega⟩
      rw [wellNamed_arr] at named
      rw [depth, Nat.add_le_add_iff_right, itemsDepth_le] at shallow
      refine reads_arr blank room fun i member short => ?_
      exact each i member (named i member) (forall_numbers_arr.mp legible i member)
        (shallow i member) short
  | object fields each =>
      intro level limit named legible shallow room
      obtain ⟨limit, rfl⟩ : ∃ k, limit = k + 1 := ⟨limit - 1, by rw [depth] at shallow; omega⟩
      rw [wellNamed_obj] at named
      rw [depth, Nat.add_le_add_iff_right, fieldsDepth_le] at shallow
      refine reads_obj blank named.1 room fun f member short => ?_
      exact each f member (named.2 f member) (forall_numbers_obj.mp legible f member)
        (shallow f member) short

end

/-! ## Texts -/

theorem Spacing.isBlank_compact : compact.IsBlank :=
  ⟨fun _ => List.forall_mem_nil _, List.forall_mem_nil _⟩

theorem Spacing.isBlank_pretty : pretty.IsBlank where
  gap level := by
    intro c member
    have member : c ∈ (newLine level).toList := member
    rw [newLine, String.toList_ofList, List.mem_cons, List.mem_replicate] at member
    rcases member with rfl | ⟨-, rfl⟩ <;> rfl
  colon := by
    intro c member
    rw [List.mem_singleton.mp member]
    rfl

/-- A text of a value, with blanks behind it, is read as the value with its numbers reread. -/
theorem read?_of_toList {s : Spacing} (blank : s.IsBlank) {json : Json} (named : json.WellNamed)
    (legible : json.Legible) (shallow : json.depth ≤ depthLimit) {text : String}
    {after : List Char} (behind : Blank after) (spelled : text.toList = s.text 0 json ++ after) :
    read? text = some json.reread := by
  have size : (s.text 0 json).length < text.length + 1 := by
    rw [← String.length_toList, spelled, List.length_append]
    omega
  have reads := reads_text blank json named legible shallow size
  have stop : Stops after := by
    cases after with
    | nil => exact fun c missing => nomatch missing
    | cons c after => exact stops_of_isSpace (behind c List.mem_cons_self)
  rw [read?, spelled, reads.skipSpace, reads.read stop]
  have nothing : skipSpace after = [] := by
    rw [← List.append_nil after, skipSpace_append behind]
    rfl
  simp only [nothing, List.isEmpty_nil, if_true]

/-- What is printed without space is read again. -/
theorem read?_compact {json : Json} (named : json.WellNamed) (legible : json.Legible)
    (shallow : json.depth ≤ depthLimit) : read? json.compact = some json.reread :=
  read?_of_toList Spacing.isBlank_compact named legible shallow (List.forall_mem_nil _)
    ((Spacing.compact_toList json 0).trans (List.append_nil _).symm)

/-- What is printed on lines of its own is read again, also with a line end. -/
theorem read?_pretty {json : Json} (named : json.WellNamed) (legible : json.Legible)
    (shallow : json.depth ≤ depthLimit) {after : String} (behind : Blank after.toList) :
    read? (json.pretty ++ after) = some json.reread := by
  refine read?_of_toList Spacing.isBlank_pretty named legible shallow behind ?_
  rw [String.toList_append, pretty, Spacing.prettyAt_toList]

/-! ## Encodings -/

/-- Whether a number is neither an infinity nor NaN. -/
def isFinite : Json → Bool
  | double x => (Decimal.Binary.ofFloat? x).isSome
  | single x => (Decimal.Binary.ofFloat32? x).isSome
  | _ => true

/-- Whether to print a number and to read its text is to have the number again. -/
def readsBack (number : Json) : Bool :=
  (reprinted? number).any number.isReadFrom

/-- All numbers in a value are finite. -/
def Finite (json : Json) : Prop :=
  ∀ number ∈ json.numbers, number.isFinite = true

/-- Printing is exact on the finite numbers in a value. -/
def PrintedExactly (json : Json) : Prop :=
  ∀ number ∈ json.numbers, number.isFinite = true → number.readsBack = true

instance (json : Json) : Decidable json.Finite :=
  inferInstanceAs (Decidable (∀ number ∈ json.numbers, number.isFinite = true))

instance (json : Json) : Decidable json.PrintedExactly :=
  inferInstanceAs
    (Decidable (∀ number ∈ json.numbers, number.isFinite = true → number.readsBack = true))

section

variable {json : Json}

theorem exists_of_readsBack {number : Json} (back : number.readsBack = true) :
    ∃ again, reprinted? number = some again ∧ number.isReadFrom again = true := by
  unfold readsBack at back
  cases read : reprinted? number with
  | none =>
      rw [read] at back
      cases back
  | some again =>
      rw [read] at back
      exact ⟨again, rfl, back⟩

theorem legible_of_finite (finite : json.Finite) (exact : json.PrintedExactly) :
    json.Legible := by
  intro number member
  obtain ⟨again, read, -⟩ := exists_of_readsBack (exact number member (finite number member))
  rw [read]
  rfl

theorem kept_of_finite (finite : json.Finite) (exact : json.PrintedExactly) :
    json.Kept reprinted := by
  intro number member
  obtain ⟨again, read, same⟩ := exists_of_readsBack (exact number member (finite number member))
  rw [reprinted, read]
  exact same

end

/-- A value is had again from its encoding, as it is and as text. -/
structure RoundTrip {α : Type} (encode : α → Json) (decode : Decoder α) (a : α) : Prop where
  decoded : decode (encode a) = some a
  /-- However deep the encoding nests. -/
  reread : decode (encode a).reread = some a
  compact : (encode a).depth ≤ depthLimit → (read? (encode a).compact).bind decode = some a
  pretty : (encode a).depth ≤ depthLimit → ∀ after : String, Blank after.toList →
    (read? ((encode a).pretty ++ after)).bind decode = some a

/-- What holds of a value with any numbers that are kept holds of its text. -/
theorem roundTrip_of_restored {α : Type} {encode : α → Json} {decode : Decoder α} {a : α}
    (named : (encode a).WellNamed)
    (restored : ∀ f, (encode a).Kept f → decode ((encode a).mapNumbers f) = some a)
    (finite : (encode a).Finite) (exact : (encode a).PrintedExactly) :
    RoundTrip encode decode a := by
  have reread : decode (encode a).reread = some a := restored _ (kept_of_finite finite exact)
  have legible := legible_of_finite finite exact
  constructor
  · have same := restored id fun number _ => isReadFrom_self number
    rwa [mapNumbers_id] at same
  · exact reread
  · intro shallow
    rw [read?_compact named legible shallow]
    exact reread
  · intro shallow after behind
    rw [read?_pretty named legible shallow behind]
    exact reread

end Handoff.Json
