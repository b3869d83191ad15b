import Handoff.CommandLine.Run
import Handoff.Proofs.Settings.Merging

/-!
Flags as stored settings.

Whatever a flag of the command line says about the settings could have been stored as well.
`Flag.stored` and `Request.stored?` are what would have to be stored, over what a file has under
the same keys.  Since the keys are merged independently (`ofStored_put`), a flag may be applied
before the merge or after it (`ofStored_flag`), and so may all of them, one after the other
(`ofStored_flags`).
-/

namespace Handoff.CommandLine

open Settings

section

variable {fields : List (String × Json)}

/-- Fields with others stored over them. -/
def overwrite (fields told : List (String × Json)) : List (String × Json) :=
  told.foldl (fun fields field => Json.put fields field.1 field.2) fields

theorem lookup_overwrite_of_notMem {told : List (String × Json)} {name : String}
    (absent : name ∉ told.map Prod.fst) :
    (overwrite fields told).lookup name = fields.lookup name := by
  induction told generalizing fields with
  | nil => rfl
  | cons field rest ih =>
      rw [List.map_cons, List.mem_cons, not_or] at absent
      exact (ih absent.2).trans (Json.lookup_put_of_ne absent.1)

/-- What a flag would be stored as. -/
def Flag.stored : Flag → List (String × Json)
  | jsx => [("jsx", .bool true)]
  | classes => [("inlineStyle", .bool false)]
  | roundValues => [("roundTailwindValues", .bool true)]
  | roundColors => [("roundTailwindColors", .bool true)]
  | layerNames => [("showLayerNames", .bool true)]
  | full => [("flutterGenerationMode", .str "full"), ("swiftUIGenerationMode", .str "full")]
  | emitDesign | json => []

theorem ofStored_flag (f : Flag) :
    ofStored (.obj (overwrite fields f.stored)) = Flag.apply (ofStored (.obj fields)) f := by
  cases f with
  | jsx => exact ofStored_put (k := .jsx) rfl rfl
  | classes => exact ofStored_put (k := .inlineStyle) rfl rfl
  | roundValues => exact ofStored_put (k := .roundTailwindValues) rfl rfl
  | roundColors => exact ofStored_put (k := .roundTailwindColors) rfl rfl
  | layerNames => exact ofStored_put (k := .showLayerNames) rfl rfl
  | full =>
      have flutter : ofStored (.obj (Json.put fields "flutterGenerationMode" (.str "full"))) =
          Key.set (ofStored (.obj fields)) .flutterScope Scope.full :=
        ofStored_put (k := .flutterScope) rfl rfl
      have both : ofStored (.obj (overwrite fields Flag.full.stored)) =
          Key.set _ .swiftUIScope Scope.full := ofStored_put (k := .swiftUIScope) rfl rfl
      rw [both, flutter]
      rfl
  | emitDesign => rfl
  | json => rfl

theorem ofStored_flags (flags : List Flag) :
    ofStored (.obj (overwrite fields (flags.flatMap Flag.stored))) =
      flags.foldl Flag.apply (ofStored (.obj fields)) := by
  induction flags generalizing fields with
  | nil => rfl
  | cons f rest ih =>
      rw [List.flatMap_cons, overwrite, List.foldl_append, List.foldl_cons, ← ofStored_flag]
      exact ih

theorem ofStored_framework (f : Framework) :
    ofStored (.obj (Json.put fields "framework" (.str f.name))) =
      { ofStored (.obj fields) with framework := f } := by
  refine ofStored_put (k := .framework) rfl ?_
  cases f <;> rfl

end

/-! ## Requests -/

/-- What a command line would be stored as; none if it asks for a framework that is unknown. -/
def Request.stored? (r : Request) : Option (List (String × Json)) := do
  let framework ← match r.framework with
    | none => some []
    | some name => (Framework.ofName? name).map fun f => [("framework", .str f.name)]
  return framework ++ r.flags.flatMap Flag.stored

/-- The fields of the object in the settings file; there are none without a file. -/
def Request.fields? (files : Files) (r : Request) : Option (List (String × Json)) :=
  match r.settings with
  | none => some []
  | some path =>
    match (files path).bind Json.read? with
    | some (.obj fields) => some fields
    | _ => none

section

variable {files : Files} {r : Request} {fields told : List (String × Json)}

theorem readSettings_of_fields? (object : r.fields? files = some fields) :
    readSettings files r.settings = .ok (ofStored (.obj fields)) := by
  rw [Request.fields?] at object
  cases file : r.settings with
  | none =>
      rw [file] at object
      cases object
      rfl
  | some path =>
      rw [file] at object
      dsimp only at object
      split at object
      · rename_i found
        obtain ⟨text, opened, read⟩ := Option.bind_eq_some_iff.mp found
        cases object
        rw [readSettings, opened]
        dsimp only
        rw [read]
        rfl
      · cases object

theorem stored?_of_framework {name : String} {f : Framework} (named : r.framework = some name)
    (known : Framework.ofName? name = some f) :
    r.stored? = some (("framework", .str f.name) :: r.flags.flatMap Flag.stored) := by
  rw [Request.stored?, named]
  dsimp only
  rw [known]
  rfl

theorem apply_ofStored (known : r.stored? = some told) :
    r.apply (ofStored (.obj fields)) = .ok (ofStored (.obj (overwrite fields told))) := by
  rw [Request.apply]
  cases named : r.framework with
  | none =>
      rw [Request.stored?, named] at known
      cases known
      exact congrArg Except.ok (ofStored_flags r.flags).symm
  | some name =>
      cases found : Framework.ofName? name with
      | none =>
          rw [Request.stored?, named] at known
          dsimp only at known
          rw [found] at known
          cases known
      | some f =>
          rw [stored?_of_framework named found] at known
          cases known
          have flags : ofStored (.obj (overwrite (Json.put fields "framework" (.str f.name))
              (r.flags.flatMap Flag.stored))) = _ := ofStored_flags r.flags
          rw [ofStored_framework] at flags
          dsimp only
          rw [found]
          exact congrArg Except.ok flags.symm

/-- A command line is carried out as if what it says were stored. -/
structure StoredOver (files : Files) (r : Request) (fields told : List (String × Json)) :
    Prop where
  settings : r.settingsIn files = .ok (ofStored (.obj (overwrite fields told)))
  /-- What is printed depends on these settings, and on the request only for what to print. -/
  printed : ∀ (scene : String) (roots : List Scene.Node), readScene files scene = .ok roots →
    runConvert files scene r = printSelection r (ofStored (.obj (overwrite fields told))) roots
  /-- A key that the command line does not name is as stored. -/
  untouched : ∀ k : Key, k.name ∉ told.map Prod.fst →
    k.get (ofStored (.obj (overwrite fields told))) = k.get (ofStored (.obj fields))

theorem storedOver_of_request (object : r.fields? files = some fields)
    (known : r.stored? = some told) : StoredOver files r fields told := by
  have settings : r.settingsIn files = .ok (ofStored (.obj (overwrite fields told))) := by
    rw [Request.settingsIn, readSettings_of_fields? object]
    exact apply_ofStored known
  refine ⟨settings, fun scene roots read => ?_, fun k absent => ?_⟩
  · rw [runConvert, read, settings]
    rfl
  · exact get_ofStored_congr (lookup_overwrite_of_notMem absent)

/-- Flags over a file in which their keys have other values, or none that could be read. -/
theorem storedOver_of_request_html :
    let files : Files := fun _ =>
      some "\x7b\"jsx\": \"no\", \"framework\": \"Flutter\"\x7d"
    let r : Request := ⟨some "card.json", some "sprig.json", some "HTML", [.full, .jsx]⟩
    let fields := [("jsx", Json.str "no"), ("framework", .str "Flutter")]
    let told := [("framework", Json.str "HTML"), ("flutterGenerationMode", .str "full"),
      ("swiftUIGenerationMode", .str "full"), ("jsx", .bool true)]
    r.fields? files = some fields ∧ r.stored? = some told ∧ StoredOver files r fields told := by
  intro files r fields told
  have object : r.fields? files = some fields := rfl
  have stored : r.stored? = some told :=
    stored?_of_framework rfl (by decide +kernel : Framework.ofName? "HTML" = some .html)
  exact ⟨object, stored, storedOver_of_request object stored⟩

end

end Handoff.CommandLine
