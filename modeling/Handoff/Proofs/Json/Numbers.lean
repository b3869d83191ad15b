import Handoff.Json.Decode

/-!
JSON values up to their numbers.

A value that was written and read again has the texts, names and nesting that it had, and only
its numbers may be spelled in another way.  `mapNumbers` puts other numbers in the place of the
numbers of a value, and `Kept` says that these are still decoded as they were.  What a decoder
makes of the parts of a value with other numbers is stated once for each combinator, so that
the decoders of records have only their fields to go through.
-/

namespace Handoff.Json

/-! ## Numbers -/

mutual

/-- The numbers in a value, from left to right. -/
def numbers : Json → List Json
  | int n => [int n]
  | double x => [double x]
  | single x => [single x]
  | arr items => itemNumbers items
  | obj fields => fieldNumbers fields
  | null | bool _ | str _ => []

/-- The numbers in the items of an array. -/
def itemNumbers : List Json → List Json
  | [] => []
  | item :: rest => item.numbers ++ itemNumbers rest

/-- The numbers in the fields of an object. -/
def fieldNumbers : List (String × Json) → List Json
  | [] => []
  | (_, value) :: rest => value.numbers ++ fieldNumbers rest

end

mutual

/-- A value with other numbers in the place of its own. -/
def mapNumbers (f : Json → Json) : Json → Json
  | int n => f (int n)
  | double x => f (double x)
  | single x => f (single x)
  | arr items => arr (mapItems f items)
  | obj fields => obj (mapFields f fields)
  | null => null
  | bool b => bool b
  | str s => str s

/-- Items with other numbers. -/
def mapItems (f : Json → Json) : List Json → List Json
  | [] => []
  | item :: rest => item.mapNumbers f :: mapItems f rest

/-- Fields with other numbers. -/
def mapFields (f : Json → Json) : List (String × Json) → List (String × Json)
  | [] => []
  | (name, value) :: rest => (name, value.mapNumbers f) :: mapFields f rest

end

/-- Induction on a value through the items of an array and the fields of an object. -/
theorem valueInduction {motive : Json → Prop}
    (scalar : ∀ json, (∀ items, json ≠ arr items) → (∀ fields, json ≠ obj fields) → motive json)
    (array : ∀ items, (∀ item ∈ items, motive item) → motive (arr items))
    (object : ∀ fields, (∀ field ∈ fields, motive field.2) → motive (obj fields))
    (json : Json) : motive json :=
  @Json.rec motive (fun items => ∀ item ∈ items, motive item)
    (fun fields => ∀ field ∈ fields, motive field.2) (fun field => motive field.2)
    (scalar _ nofun nofun) (fun _ => scalar _ nofun nofun) (fun _ => scalar _ nofun nofun)
    (fun _ => scalar _ nofun nofun) (fun _ => scalar _ nofun nofun)
    (fun _ => scalar _ nofun nofun) array object
    (List.forall_mem_nil _) (fun _ _ first rest => List.forall_mem_cons.mpr ⟨first, rest⟩)
    (List.forall_mem_nil _) (fun _ _ first rest => List.forall_mem_cons.mpr ⟨first, rest⟩)
    (fun _ _ value => value) json

section

variable {f : Json → Json}

theorem itemNumbers_eq (items : List Json) : itemNumbers items = items.flatMap numbers := by
  induction items with
  | nil => rfl
  | cons item rest ih => rw [itemNumbers, ih, List.flatMap_cons]

theorem fieldNumbers_eq (fields : List (String × Json)) :
    fieldNumbers fields = fields.flatMap (·.2.numbers) := by
  induction fields with
  | nil => rfl
  | cons field rest ih => rw [fieldNumbers, ih, List.flatMap_cons]

theorem forall_numbers_arr {P : Json → Prop} {items : List Json} :
    (∀ number ∈ (arr items).numbers, P number) ↔
      ∀ item ∈ items, ∀ number ∈ item.numbers, P number := by
  rw [numbers, itemNumbers_eq]
  exact List.forall_mem_flatMap

theorem forall_numbers_obj {P : Json → Prop} {fields : List (String × Json)} :
    (∀ number ∈ (obj fields).numbers, P number) ↔
      ∀ field ∈ fields, ∀ number ∈ field.2.numbers, P number := by
  rw [numbers, fieldNumbers_eq]
  exact List.forall_mem_flatMap

theorem mapItems_eq (items : List Json) : mapItems f items = items.map (mapNumbers f) := by
  induction items with
  | nil => rfl
  | cons item rest ih => rw [mapItems, ih, List.map_cons]

theorem mapFields_eq (fields : List (String × Json)) :
    mapFields f fields = fields.map fun (name, value) => (name, value.mapNumbers f) := by
  induction fields with
  | nil => rfl
  | cons field rest ih => rw [mapFields, ih, List.map_cons]

theorem mapNumbers_id (json : Json) : json.mapNumbers id = json := by
  induction json using valueInduction with
  | scalar json noArray noObject =>
      cases json <;> first | rfl | exact absurd rfl (noArray _) | exact absurd rfl (noObject _)
  | array items each =>
      rw [mapNumbers, mapItems_eq, List.map_congr_left each, List.map_id']
  | object fields each =>
      have same : ∀ field ∈ fields, (field.1, field.2.mapNumbers id) = field :=
        fun field member => Prod.ext rfl (each field member)
      rw [mapNumbers, mapFields_eq, List.map_congr_left same, List.map_id']

theorem mapFields_append (first later : List (String × Json)) :
    mapFields f (first ++ later) = mapFields f first ++ mapFields f later := by
  simp only [mapFields_eq, List.map_append]

theorem forall_mem_mapFields {P : String → Prop} {fields : List (String × Json)} :
    (∀ field ∈ mapFields f fields, P field.1) ↔ ∀ field ∈ fields, P field.1 := by
  simp only [mapFields_eq, List.forall_mem_map]

/-- Whether another value is decoded as a number; values that are no numbers do not matter. -/
def isReadFrom (number again : Json) : Bool :=
  match number, again with
  | int n, int m => m == n
  | int _, _ => false
  | double x, again => decide (double? again = some x)
  | single x, again => decide (single? again = some x)
  | _, _ => true

/-- After `f` all numbers of a value are still decoded as what they were. -/
def Kept (f : Json → Json) (json : Json) : Prop :=
  ∀ number ∈ json.numbers, number.isReadFrom (f number) = true

theorem isReadFrom_self (number : Json) : number.isReadFrom number = true := by
  cases number <;> simp [isReadFrom, double?, single?]

theorem isReadFrom_int {n : Int} {again : Json} :
    (int n).isReadFrom again = true ↔ again = int n := by
  cases again <;> simp [isReadFrom]

@[simp] theorem kept_int {n : Int} : Kept f (int n) ↔ f (int n) = int n :=
  List.forall_mem_singleton.trans isReadFrom_int

@[simp] theorem kept_double {x : Float} :
    Kept f (double x) ↔ double? (f (double x)) = some x :=
  List.forall_mem_singleton.trans decide_eq_true_iff

@[simp] theorem kept_single {x : Float32} :
    Kept f (single x) ↔ single? (f (single x)) = some x :=
  List.forall_mem_singleton.trans decide_eq_true_iff

@[simp] theorem kept_null : Kept f null :=
  List.forall_mem_nil _

@[simp] theorem kept_bool {b : Bool} : Kept f (bool b) :=
  List.forall_mem_nil _

@[simp] theorem kept_str {s : String} : Kept f (str s) :=
  List.forall_mem_nil _

@[simp] theorem kept_arr {items : List Json} :
    Kept f (arr items) ↔ ∀ item ∈ items, Kept f item :=
  forall_numbers_arr

@[simp] theorem kept_obj {fields : List (String × Json)} :
    Kept f (obj fields) ↔ ∀ field ∈ fields, Kept f field.2 :=
  forall_numbers_obj

theorem kept_ofOption {α : Type} {encode : α → Json} {o : Option α} :
    Kept f (ofOption encode o) ↔ ∀ a ∈ o, Kept f (encode a) := by
  cases o <;> simp [ofOption]

theorem kept_ofList {α : Type} {encode : α → Json} {items : List α} :
    Kept f (ofList encode items) ↔ ∀ a ∈ items, Kept f (encode a) := by
  simp [ofList]

/-! ## Names -/

mutual

/-- No object in a value has two fields of one name. -/
def WellNamed : Json → Prop
  | arr items => ItemsWellNamed items
  | obj fields => (fields.map (·.1)).Nodup ∧ FieldsWellNamed fields
  | _ => True

/-- No object in the items of an array has two fields of one name. -/
def ItemsWellNamed : List Json → Prop
  | [] => True
  | item :: rest => item.WellNamed ∧ ItemsWellNamed rest

/-- No object in the fields of an object has two fields of one name. -/
def FieldsWellNamed : List (String × Json) → Prop
  | [] => True
  | (_, value) :: rest => value.WellNamed ∧ FieldsWellNamed rest

end

@[simp] theorem wellNamed_arr {items : List Json} :
    (arr items).WellNamed ↔ ∀ item ∈ items, item.WellNamed := by
  rw [WellNamed]
  induction items with
  | nil => simp [ItemsWellNamed]
  | cons item rest ih => rw [ItemsWellNamed, ih, List.forall_mem_cons]

@[simp] theorem wellNamed_obj {fields : List (String × Json)} :
    (obj fields).WellNamed ↔
      (fields.map (·.1)).Nodup ∧ ∀ field ∈ fields, field.2.WellNamed := by
  have each : FieldsWellNamed fields ↔ ∀ field ∈ fields, field.2.WellNamed := by
    induction fields with
    | nil => simp [FieldsWellNamed]
    | cons field rest ih => rw [FieldsWellNamed, ih, List.forall_mem_cons]
  rw [WellNamed, each]

theorem wellNamed_ofOption {α : Type} {encode : α → Json} {o : Option α}
    (each : ∀ a, (encode a).WellNamed) : (ofOption encode o).WellNamed := by
  cases o with
  | none => trivial
  | some a => exact each a

/-! ## Codecs -/

variable {α : Type}

/-- A value that is encoded is decoded to itself, even with other numbers as long as these are
decoded as what they were. -/
class Codec (encode : α → Json) (decode : outParam (Decoder α)) : Prop where
  wellNamed : ∀ a, (encode a).WellNamed
  restored : ∀ {f : Json → Json} {a : α}, (encode a).Kept f →
    decode ((encode a).mapNumbers f) = some a

/-- Moreover, no value is decoded from `null`. -/
class StrictCodec (encode : α → Json) (decode : outParam (Decoder α)) : Prop extends
    Codec encode decode where
  strict : decode null = none

attribute [simp] Codec.wellNamed

variable {encode : α → Json} {decode : Decoder α}

instance : StrictCodec double double? where
  wellNamed := by simp [WellNamed]
  restored := kept_double.mp
  strict := rfl

instance : StrictCodec single single? where
  wellNamed := by simp [WellNamed]
  restored := kept_single.mp
  strict := rfl

instance : StrictCodec bool bool? where
  wellNamed := by simp [WellNamed]
  restored := fun _ => rfl
  strict := rfl

instance : StrictCodec str text? where
  wellNamed := by simp [WellNamed]
  restored := fun _ => rfl
  strict := rfl

theorem nullable?_of_ne {json : Json} (present : json ≠ null) :
    nullable? decode json = (decode json).map some := by
  cases json <;> first | rfl | exact absurd rfl present

/-- A value that may be missing is decoded if it is when there, and is not taken for none. -/
theorem nullable?_mapNumbers {o : Option α} (strict : decode null = none)
    (restored : ∀ a ∈ o, decode ((encode a).mapNumbers f) = some a) :
    nullable? decode ((ofOption encode o).mapNumbers f) = some o := by
  cases o with
  | none => rfl
  | some a =>
      have own := restored a rfl
      have present : (encode a).mapNumbers f ≠ null := by
        intro missing
        rw [missing, strict] at own
        cases own
      rw [ofOption, nullable?_of_ne present, own, Option.map_some]

instance [StrictCodec encode decode] : Codec (ofOption encode) (nullable? decode) where
  wellNamed _ := wellNamed_ofOption Codec.wellNamed
  restored kept :=
    nullable?_mapNumbers (StrictCodec.strict encode) fun a own =>
      Codec.restored (kept_ofOption.mp kept a own)

/-- A list is decoded if all its items are. -/
instance [Codec encode decode] : StrictCodec (ofList encode) (list? decode) where
  wellNamed items := by simp [ofList]
  restored := by
    intro f items kept
    rw [ofList, mapNumbers, mapItems_eq, list?, List.map_map]
    rw [kept_ofList] at kept
    induction items with
    | nil => rfl
    | cons a rest ih =>
        obtain ⟨own, others⟩ := List.forall_mem_cons.mp kept
        simp only [List.map_cons, List.mapM_cons, Function.comp_apply, ih others,
          Codec.restored own]
        rfl
  strict := rfl

theorem list?_mapNumbers [Codec encode decode] {items : List α}
    (kept : (ofList encode items).Kept f) :
    list? decode ((ofList encode items).mapNumbers f) = some items :=
  Codec.restored kept

/-! ## Records -/

@[simp] theorem fields?_mapNumbers {names : List String} {entries : List (String × Json)} :
    fields? names ((obj entries).mapNumbers f) = some ⟨mapFields f entries, true⟩ :=
  rfl

section

variable {name other : String} {json : Json} {rest : List (String × Json)} {named : Bool}
  {default a : α}

theorem lookup_head : (mapFields f ((name, json) :: rest)).lookup name =
    some (json.mapNumbers f) :=
  List.lookup_cons_self

theorem lookup_tail (differ : name ≠ other) :
    (mapFields f ((other, json) :: rest)).lookup name = (mapFields f rest).lookup name := by
  rw [mapFields_eq, mapFields_eq, List.map_cons, List.lookup_cons, beq_false_of_ne differ]

theorem required_of_restored (restored : decode (json.mapNumbers f) = some a) :
    Fields.required ⟨mapFields f ((name, json) :: rest), named⟩ name decode = some a := by
  rw [Fields.required, lookup_head]
  exact restored

theorem optional_of_restored {o : Option α}
    (restored : nullable? decode (json.mapNumbers f) = some o) :
    Fields.optional ⟨mapFields f ((name, json) :: rest), named⟩ name decode = some o := by
  rw [Fields.optional, lookup_head]
  exact restored

@[simp] theorem required_head [Codec encode decode] (kept : (encode a).Kept f) :
    Fields.required ⟨mapFields f ((name, encode a) :: rest), named⟩ name decode = some a :=
  required_of_restored (Codec.restored kept)

@[simp] theorem optional_head [StrictCodec encode decode] {o : Option α}
    (kept : (ofOption encode o).Kept f) :
    Fields.optional ⟨mapFields f ((name, ofOption encode o) :: rest), named⟩ name decode =
      some o :=
  optional_of_restored (Codec.restored kept)

@[simp] theorem withDefault_head [Codec encode decode] (kept : (encode a).Kept f) :
    Fields.withDefault ⟨mapFields f ((name, encode a) :: rest), named⟩ name default decode =
      some a := by
  rw [Fields.withDefault, lookup_head]
  exact Codec.restored kept

@[simp] theorem withDefault_tail (differ : name ≠ other) :
    Fields.withDefault ⟨mapFields f ((other, json) :: rest), named⟩ name default decode =
      Fields.withDefault ⟨mapFields f rest, named⟩ name default decode := by
  rw [Fields.withDefault, Fields.withDefault, lookup_tail differ]

@[simp] theorem required_tail (differ : name ≠ other) :
    Fields.required ⟨mapFields f ((other, json) :: rest), named⟩ name decode =
      Fields.required ⟨mapFields f rest, named⟩ name decode := by
  rw [Fields.required, Fields.required, lookup_tail differ]

@[simp] theorem optional_tail (differ : name ≠ other) :
    Fields.optional ⟨mapFields f ((other, json) :: rest), named⟩ name decode =
      Fields.optional ⟨mapFields f rest, named⟩ name decode := by
  rw [Fields.optional, Fields.optional, lookup_tail differ]

end

end

end Handoff.Json
