import Handoff.Settings.Json

/-!
Stored settings, key by key.

`Settings.ofStored` goes through the keys with one record that every stored value is put into, and
each time it decodes the whole record again.  `Key` is a setting on its own: its name, its values,
and how they are written and read.  The invariant of the run is `Records`: the record has for every
key a value of the default's type that is decoded.  Since a record is decoded if and only if each of
its keys is (`ofEntries?_eq_some_iff`), a step then decides about its key by the stored value alone
(`Records.mergeKey`), the run leaves in every place what the key on its own would take
(`get_ofStored`), and `lenient_ofStored` says what that comes to.
-/

namespace Handoff

namespace Json

variable {fields : List (String × Json)} {name other : String} {value : Json}

theorem lookup_put_self : (put fields name value).lookup name = some value := by
  induction fields with
  | nil => exact List.lookup_cons_self
  | cons field rest ih =>
      obtain ⟨n, v⟩ := field
      rw [put]
      split
      · rename_i same
        rw [same, List.lookup_cons_self]
      · rename_i differ
        rw [List.lookup_cons, beq_false_of_ne (Ne.symm differ)]
        exact ih

theorem lookup_put_of_ne (differ : other ≠ name) :
    (put fields name value).lookup other = fields.lookup other := by
  induction fields with
  | nil => rw [put, List.lookup_cons, beq_false_of_ne differ]
  | cons field rest ih =>
      obtain ⟨n, v⟩ := field
      rw [put]
      split
      · rename_i same
        rw [same, List.lookup_cons, List.lookup_cons, beq_false_of_ne differ]
      · rw [List.lookup_cons, List.lookup_cons, ih]

end Json

namespace Settings

/-! ## Keys -/

/-- The settings one by one. -/
inductive Key where
  | framework
  | jsx
  | optimizeLayout
  | showLayerNames
  | inlineStyle
  | responsiveRoot
  | flutterScope
  | swiftUIScope
  | roundTailwindValues
  | roundTailwindColors
  | colorTolerance
deriving DecidableEq

namespace Key

/-- All keys, in the order of the settings. -/
def all : List Key :=
  [framework, jsx, optimizeLayout, showLayerNames, inlineStyle, responsiveRoot, flutterScope,
    swiftUIScope, roundTailwindValues, roundTailwindColors, colorTolerance]

/-- The name that a key is stored under. -/
def name : Key → String
  | framework => "framework"
  | jsx => "jsx"
  | optimizeLayout => "optimizeLayout"
  | showLayerNames => "showLayerNames"
  | inlineStyle => "inlineStyle"
  | responsiveRoot => "responsiveRoot"
  | flutterScope => "flutterGenerationMode"
  | swiftUIScope => "swiftUIGenerationMode"
  | roundTailwindValues => "roundTailwindValues"
  | roundTailwindColors => "roundTailwindColors"
  | colorTolerance => "colorTolerance"

/-- The values of a key. -/
def Value : Key → Type
  | framework => Framework
  | flutterScope | swiftUIScope => Scope
  | colorTolerance => Float
  | jsx | optimizeLayout | showLayerNames | inlineStyle | responsiveRoot | roundTailwindValues
  | roundTailwindColors => Bool

/-- The value that settings have for a key. -/
def get (s : Settings) : (k : Key) → k.Value
  | framework => s.framework
  | jsx => s.jsx
  | optimizeLayout => s.optimizeLayout
  | showLayerNames => s.showLayerNames
  | inlineStyle => s.inlineStyle
  | responsiveRoot => s.responsiveRoot
  | flutterScope => s.flutterScope
  | swiftUIScope => s.swiftUIScope
  | roundTailwindValues => s.roundTailwindValues
  | roundTailwindColors => s.roundTailwindColors
  | colorTolerance => s.colorTolerance

/-- Settings with another value for a key. -/
def set (s : Settings) : (k : Key) → k.Value → Settings
  | framework, v => { s with framework := v }
  | jsx, v => { s with jsx := v }
  | optimizeLayout, v => { s with optimizeLayout := v }
  | showLayerNames, v => { s with showLayerNames := v }
  | inlineStyle, v => { s with inlineStyle := v }
  | responsiveRoot, v => { s with responsiveRoot := v }
  | flutterScope, v => { s with flutterScope := v }
  | swiftUIScope, v => { s with swiftUIScope := v }
  | roundTailwindValues, v => { s with roundTailwindValues := v }
  | roundTailwindColors, v => { s with roundTailwindColors := v }
  | colorTolerance, v => { s with colorTolerance := v }

/-- A value of a key as it is stored. -/
def write : (k : Key) → k.Value → Json
  | framework, v => .str (Framework.name v)
  | flutterScope, v | swiftUIScope, v => .str (Scope.word v)
  | colorTolerance, v => .ofFloat v
  | jsx, v | optimizeLayout, v | showLayerNames, v | inlineStyle, v | responsiveRoot, v
  | roundTailwindValues, v | roundTailwindColors, v => .bool v

/-- The value of a key that is stored. -/
def read? : (k : Key) → Json → Option k.Value
  | framework => Framework.ofJson?
  | flutterScope | swiftUIScope => Scope.ofJson?
  | colorTolerance => Json.double?
  | jsx | optimizeLayout | showLayerNames | inlineStyle | responsiveRoot | roundTailwindValues
  | roundTailwindColors => Json.bool?

/-- The default of a key. -/
def default (k : Key) : k.Value := k.get defaults

/-- What is stored for a key, if it has the type of the default and is a value. -/
def taken? (k : Key) (stored : List (String × Json)) : Option k.Value :=
  (stored.lookup k.name).bind fun json =>
    if json.kind = (k.write k.default).kind then k.read? json else none

theorem mem_all (k : Key) : k ∈ all := by
  cases k <;> decide

theorem name_inj {k l : Key} : k.name = l.name ↔ k = l := by
  refine ⟨fun same => ?_, congrArg name⟩
  have distinct : ∀ k ∈ all, ∀ l ∈ all, k.name = l.name → k = l := by decide
  exact distinct k k.mem_all l l.mem_all same

end Key

section

variable {s t : Settings} {k l : Key}

/-- Settings are made up of the values of their keys. -/
theorem ext_get (same : ∀ k : Key, k.get s = k.get t) : s = t := by
  obtain ⟨⟩ := s
  obtain ⟨⟩ := t
  congr 1
  · exact same .framework
  · exact same .jsx
  · exact same .optimizeLayout
  · exact same .showLayerNames
  · exact same .inlineStyle
  · exact same .responsiveRoot
  · exact same .flutterScope
  · exact same .swiftUIScope
  · exact same .roundTailwindValues
  · exact same .roundTailwindColors
  · exact same .colorTolerance

theorem get_set_self (v : k.Value) : k.get (k.set s v) = v := by
  cases k <;> rfl

theorem get_set_of_ne (differ : k ≠ l) (v : l.Value) : k.get (l.set s v) = k.get s := by
  cases k <;> cases l <;> first | rfl | exact absurd rfl differ

/-- A value that is written is read again; only a number may be none. -/
theorem read?_write (finite : s.colorTolerance.isFinite = true) (k : Key) :
    k.read? (k.write (k.get s)) = some (k.get s) := by
  cases k
  case framework =>
    rw [Key.read?, Key.write, Key.get]
    cases s.framework <;> rfl
  case flutterScope =>
    rw [Key.read?, Key.write, Key.get]
    cases s.flutterScope <;> rfl
  case swiftUIScope =>
    rw [Key.read?, Key.write, Key.get]
    cases s.swiftUIScope <;> rfl
  case colorTolerance =>
    rw [Key.read?, Key.write, Key.get, Json.ofFloat, if_pos finite]
    rfl
  all_goals rfl

/-- All finite values of a key are written with one type. -/
theorem kind_write (finite : s.colorTolerance.isFinite = true) (k : Key) :
    (k.write (k.get s)).kind = (k.write k.default).kind := by
  cases k
  case colorTolerance =>
    rw [Key.write, Key.get, Json.ofFloat, if_pos finite]
    rfl
  all_goals rfl

theorem lookup_entries (s : Settings) (k : Key) :
    s.entries.lookup k.name = some (k.write (k.get s)) := by
  cases k <;> rfl

end

/-! ## Records -/

section

variable {entries merged stored : List (String × Json)} {s : Settings}

/-- The value of a key in a record; one that is missing has its default. -/
def Key.decode? (k : Key) (entries : List (String × Json)) : Option k.Value :=
  Json.Fields.withDefault ⟨entries, true⟩ k.name k.default k.read?

/-- A record is decoded if and only if every key is. -/
theorem ofEntries?_eq_some_iff :
    ofEntries? entries = some s ↔ ∀ k : Key, k.decode? entries = some (k.get s) := by
  simp only [ofEntries?, Option.bind_eq_bind, Option.bind_eq_some_iff]
  constructor
  · rintro ⟨_, framework, _, jsx, _, optimize, _, names, _, inline, _, responsive, _, flutter,
      _, swiftUI, _, values, _, colors, _, tolerance, ⟨⟩⟩ k
    cases k
    case framework => exact framework
    case jsx => exact jsx
    case optimizeLayout => exact optimize
    case showLayerNames => exact names
    case inlineStyle => exact inline
    case responsiveRoot => exact responsive
    case flutterScope => exact flutter
    case swiftUIScope => exact swiftUI
    case roundTailwindValues => exact values
    case roundTailwindColors => exact colors
    case colorTolerance => exact tolerance
  · intro read
    exact ⟨_, read .framework, _, read .jsx, _, read .optimizeLayout, _, read .showLayerNames,
      _, read .inlineStyle, _, read .responsiveRoot, _, read .flutterScope,
      _, read .swiftUIScope, _, read .roundTailwindValues, _, read .roundTailwindColors,
      _, read .colorTolerance, rfl⟩

theorem Key.decode?_of_lookup {k : Key} {json : Json} (found : entries.lookup k.name = some json) :
    k.decode? entries = k.read? json := by
  rw [Key.decode?, Json.Fields.withDefault, found]

/-- A record of settings: every key has a value that is decoded, of the type of the default. -/
def Records (entries : List (String × Json)) (s : Settings) : Prop :=
  ∀ k : Key, ∃ json, entries.lookup k.name = some json ∧
    json.kind = (k.write k.default).kind ∧ k.read? json = some (k.get s)

theorem records_entries (finite : s.colorTolerance.isFinite = true) : Records s.entries s :=
  fun k => ⟨k.write (k.get s), lookup_entries s k, kind_write finite k, read?_write finite k⟩

theorem Records.ofEntries? (records : Records entries s) : ofEntries? entries = some s := by
  rw [ofEntries?_eq_some_iff]
  intro k
  obtain ⟨json, found, -, read⟩ := records k
  rw [Key.decode?_of_lookup found, read]

theorem Records.put (records : Records entries s) {k : Key} {json : Json} {v : k.Value}
    (kind : json.kind = (k.write k.default).kind) (read : k.read? json = some v) :
    Records (Json.put entries k.name json) (k.set s v) := by
  intro l
  by_cases same : l = k
  · subst same
    exact ⟨json, Json.lookup_put_self, kind, by rw [read, get_set_self]⟩
  · rw [Json.lookup_put_of_ne (mt Key.name_inj.mp same), get_set_of_ne same]
    exact records l

/-! ## The run over the keys -/

/-- Settings after a key has been merged. -/
def Key.take (stored : List (String × Json)) (s : Settings) (k : Key) : Settings :=
  match k.taken? stored with
  | some v => k.set s v
  | none => s

theorem get_take_self {k : Key} :
    k.get (k.take stored s) = (k.taken? stored).getD (k.get s) := by
  rw [Key.take]
  cases k.taken? stored with
  | none => rfl
  | some v => exact get_set_self v

theorem get_take_of_ne {k l : Key} (differ : k ≠ l) : k.get (l.take stored s) = k.get s := by
  rw [Key.take]
  cases l.taken? stored with
  | none => rfl
  | some v => exact get_set_of_ne differ v

/-- A step of the run does for its key what the key alone would do, and nothing else. -/
theorem Records.mergeKey (records : Records merged s) (k : Key) :
    Records (mergeKey stored merged k.name) (k.take stored s) := by
  obtain ⟨current, there, kind, -⟩ := records k
  rw [Settings.mergeKey, there, Key.take, Key.taken?]
  cases stored.lookup k.name with
  | none => exact records
  | some value =>
      dsimp only [Option.bind_some]
      rw [kind]
      by_cases fits : value.kind = (k.write k.default).kind
      · simp only [fits, true_and, if_true]
        cases read : k.read? value with
        | some v =>
            have changed := records.put fits read
            rw [if_pos (Option.isSome_of_eq_some changed.ofEntries?)]
            exact changed
        | none =>
            -- what is put in this place is not decoded, whatever the other places hold
            rw [if_neg]
            · exact records
            intro decodes
            obtain ⟨t, decoded⟩ := Option.isSome_iff_exists.mp decodes
            have missing := ofEntries?_eq_some_iff.mp decoded k
            rw [Key.decode?_of_lookup Json.lookup_put_self, read] at missing
            exact absurd missing (Option.some_ne_none _).symm
      · rw [if_neg fits, if_neg fun both => fits both.1]
        exact records

theorem Records.foldl (keys : List Key) (records : Records merged s) :
    Records ((keys.map Key.name).foldl (Settings.mergeKey stored) merged)
      (keys.foldl (Key.take stored) s) := by
  induction keys generalizing merged s with
  | nil => exact records
  | cons k rest ih => exact ih (records.mergeKey k)

theorem get_foldl_take_of_notMem {keys : List Key} {k : Key} (absent : k ∉ keys) :
    k.get (keys.foldl (Key.take stored) s) = k.get s := by
  induction keys generalizing s with
  | nil => rfl
  | cons l rest ih =>
      rw [List.mem_cons, not_or] at absent
      rw [List.foldl_cons, ih absent.2, get_take_of_ne absent.1]

theorem get_foldl_take {keys : List Key} {k : Key} (distinct : keys.Nodup) (member : k ∈ keys) :
    k.get (keys.foldl (Key.take stored) s) = (k.taken? stored).getD (k.get s) := by
  induction keys generalizing s with
  | nil => cases member
  | cons l rest ih =>
      obtain ⟨first, distinct⟩ := List.nodup_cons.mp distinct
      rw [List.foldl_cons]
      by_cases same : k = l
      · subst same
        rw [get_foldl_take_of_notMem first, get_take_self]
      · rw [ih distinct ((List.mem_cons.mp member).resolve_left same), get_take_of_ne same]

end

/-- The keys of a stored object are merged independently of one another. -/
theorem get_ofStored (stored : List (String × Json)) (k : Key) :
    k.get (ofStored (.obj stored)) = (k.taken? stored).getD k.default := by
  have start : Records defaults.entries defaults := records_entries (by decide)
  have names : defaults.entries.map (·.1) = Key.all.map Key.name := rfl
  rw [ofStored, names, (start.foldl Key.all).ofEntries?, Option.getD_some,
    get_foldl_take (by decide) k.mem_all, Key.default]

section

variable {one two : List (String × Json)} {stored : List (String × Json)} {k : Key} {json : Json}
  {v : k.Value}

theorem get_ofStored_of_fits (found : stored.lookup k.name = some json)
    (kind : json.kind = (k.write k.default).kind) (read : k.read? json = some v) :
    k.get (ofStored (.obj stored)) = v := by
  rw [get_ofStored, Key.taken?, found, Option.bind_some, if_pos kind, read, Option.getD_some]

theorem get_ofStored_congr (same : one.lookup k.name = two.lookup k.name) :
    k.get (ofStored (.obj one)) = k.get (ofStored (.obj two)) := by
  rw [get_ofStored, get_ofStored, Key.taken?, Key.taken?, same]

/-- A value that fits is what its key is set to, whatever was stored for the key. -/
theorem ofStored_put (kind : json.kind = (k.write k.default).kind)
    (read : k.read? json = some v) :
    ofStored (.obj (Json.put stored k.name json)) = k.set (ofStored (.obj stored)) v := by
  refine ext_get fun l => ?_
  by_cases same : l = k
  · subst same
    rw [get_set_self, get_ofStored_of_fits Json.lookup_put_self kind read]
  · rw [get_set_of_ne same,
      get_ofStored_congr (Json.lookup_put_of_ne (mt Key.name_inj.mp same))]

end

/-! ## Lenient merging -/

/-- A merge of stored settings over the defaults that lets no key influence another one. -/
structure Lenient (merge : Json → Settings) : Prop where
  /-- Anything but an object yields the defaults. -/
  other : ∀ json : Json, json.kind ≠ .object → merge json = defaults
  /-- A stored value is taken if it has the type of the default and is a value of the key. -/
  taken : ∀ (stored : List (String × Json)) (k : Key) (json : Json) (v : k.Value),
    stored.lookup k.name = some json → json.kind = (k.write k.default).kind →
    k.read? json = some v → k.get (merge (.obj stored)) = v
  /-- Otherwise the default is. -/
  default : ∀ (stored : List (String × Json)) (k : Key),
    (∀ json, stored.lookup k.name = some json → json.kind = (k.write k.default).kind →
      k.read? json = none) → k.get (merge (.obj stored)) = k.default
  /-- A key depends on nothing but what is stored for it. -/
  independent : ∀ (one two : List (String × Json)) (k : Key),
    one.lookup k.name = two.lookup k.name →
    k.get (merge (.obj one)) = k.get (merge (.obj two))
  /-- A name that is no key changes nothing, whatever is stored for it. -/
  unknown : ∀ (stored : List (String × Json)) (name : String) (json : Json),
    (∀ k : Key, name ≠ k.name) → merge (.obj (Json.put stored name json)) = merge (.obj stored)
  /-- Settings are restored from what they are stored as. -/
  restored : ∀ s : Settings, s.colorTolerance.isFinite = true → merge s.toJson = s

theorem lenient_ofStored : Lenient ofStored where
  other json kind := by
    cases json with
    | obj => exact absurd rfl kind
    | _ => rfl
  taken _ _ _ _ found kind read := get_ofStored_of_fits found kind read
  default stored k unfit := by
    rw [get_ofStored, Key.taken?]
    cases found : stored.lookup k.name with
    | none => rfl
    | some json =>
        rw [Option.bind_some]
        split
        · rename_i kind
          rw [unfit json found kind, Option.getD_none]
        · rfl
  independent _ _ _ same := get_ofStored_congr same
  unknown _ _ _ other :=
    ext_get fun k => get_ofStored_congr (Json.lookup_put_of_ne (Ne.symm (other k)))
  restored s finite := ext_get fun k =>
    get_ofStored_of_fits (lookup_entries s k) (kind_write finite k) (read?_write finite k)

end Settings

end Handoff
