import Handoff.Settings.Basic
import Handoff.Json.Decode

/-!
# Stored settings

Settings are stored as an object with camel-case keys.  `Settings.ofStored` merges such an
object over the defaults and never fails: key by key the stored value takes the place of
the default, unless it has another type or the settings could not be decoded with it.
-/

namespace Handoff

/-- A number; an infinity or NaN is stored as `null`. -/
def Json.ofFloat (x : Float) : Json := if x.isFinite then .double x else .null

/-- The target of a stored name. -/
def Framework.ofJson? : Json.Decoder Framework := fun json => do
  let name ← Json.tag? json
  Framework.all.find? (·.name == name)

namespace Scope

/-- The stored word of a scope. -/
def word : Scope → String
  | snippet => "snippet"
  | full => "full"

/-- The scope of a stored word. -/
def ofJson? : Json.Decoder Scope := fun json => do
  let name ← Json.tag? json
  [snippet, full].find? (·.word == name)

end Scope

namespace Settings

/-- Every setting under its key. -/
def entries (s : Settings) : List (String × Json) := [
  ("framework", .str s.framework.name),
  ("jsx", .bool s.jsx),
  ("optimizeLayout", .bool s.optimizeLayout),
  ("showLayerNames", .bool s.showLayerNames),
  ("inlineStyle", .bool s.inlineStyle),
  ("responsiveRoot", .bool s.responsiveRoot),
  ("flutterGenerationMode", .str s.flutterScope.word),
  ("swiftUIGenerationMode", .str s.swiftUIScope.word),
  ("roundTailwindValues", .bool s.roundTailwindValues),
  ("roundTailwindColors", .bool s.roundTailwindColors),
  ("colorTolerance", .ofFloat s.colorTolerance)]

/-- The settings as an object. -/
def toJson (s : Settings) : Json := .obj s.entries

/-- The settings of an object; a setting whose key is missing has its default. -/
def ofEntries? (entries : List (String × Json)) : Option Settings := do
  let f : Json.Fields := ⟨entries, true⟩
  let framework ← f.withDefault "framework" defaults.framework Framework.ofJson?
  let jsx ← f.withDefault "jsx" defaults.jsx Json.bool?
  let optimizeLayout ← f.withDefault "optimizeLayout" defaults.optimizeLayout Json.bool?
  let showLayerNames ← f.withDefault "showLayerNames" defaults.showLayerNames Json.bool?
  let inlineStyle ← f.withDefault "inlineStyle" defaults.inlineStyle Json.bool?
  let responsiveRoot ← f.withDefault "responsiveRoot" defaults.responsiveRoot Json.bool?
  let flutterScope ← f.withDefault "flutterGenerationMode" defaults.flutterScope Scope.ofJson?
  let swiftUIScope ← f.withDefault "swiftUIGenerationMode" defaults.swiftUIScope Scope.ofJson?
  let roundTailwindValues ←
    f.withDefault "roundTailwindValues" defaults.roundTailwindValues Json.bool?
  let roundTailwindColors ←
    f.withDefault "roundTailwindColors" defaults.roundTailwindColors Json.bool?
  let colorTolerance ← f.withDefault "colorTolerance" defaults.colorTolerance Json.double?
  return {
    framework, jsx, optimizeLayout, showLayerNames, inlineStyle, responsiveRoot, flutterScope,
    swiftUIScope, roundTailwindValues, roundTailwindColors, colorTolerance }

/-- Puts the stored value of a key in the place of the one that is there, if it has the same
type and the settings can be decoded with it. -/
def mergeKey (stored merged : List (String × Json)) (key : String) : List (String × Json) :=
  match stored.lookup key, merged.lookup key with
  | some value, some current =>
    let changed := Json.put merged key value
    if value.kind = current.kind ∧ (ofEntries? changed).isSome then changed else merged
  | _, _ => merged

/-- The settings of a stored value, whatever it is. -/
def ofStored : Json → Settings
  | .obj stored =>
    let keys := defaults.entries.map (·.1)
    (ofEntries? (keys.foldl (mergeKey stored) defaults.entries)).getD defaults
  | _ => defaults

end Settings

end Handoff
