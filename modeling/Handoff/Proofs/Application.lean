import Handoff.Proofs.Design.TypeNames
import Handoff.Proofs.Template.Scaffold
import Handoff.Proofs.Text.Declared

/-!
The types of an application.

An application is a type for each root of a design, and a scaffold that shows them and declares
types of its own.  `Text.typesOf` reads off the lines of a scaffold which types it declares and
which it extends; they have a type of a root among them for certain names only
(`Swift.viewName_mem_scaffoldTypes_iff`, `Dart.className_mem_scaffoldTypes_iff`).

`ApplicationTypes` says what this comes to for a design, whose type names are the unique names
of its roots in Pascal case.
-/

namespace Handoff

open Design (Node typeNames)
open Text (declaredNames declaredNames_below IsName)

/-! ## Scaffolds -/

/-- The types that the lines of a code declare, and those that they extend. -/
def Text.typesOf (keyword extension code : String) : List String :=
  let declared := declaredNames keyword code
  declared ++ declared.flatMap fun name => declaredNames (keyword ++ name ++ extension) code

/-- Types are read from the characters of a code. -/
theorem Text.typesOf_ofList (keyword extension code : List Char) :
    typesOf (String.ofList keyword) (String.ofList extension) (String.ofList code) =
      ((splitChars '\n' code).flatMap (declaredOn keyword)) ++
        ((splitChars '\n' code).flatMap (declaredOn keyword)).flatMap fun name =>
          (splitChars '\n' code).flatMap (declaredOn (keyword ++ name.toList ++ extension)) := by
  simp only [typesOf, declaredNames_ofList]
  simp only [declaredNames, String.toList_append, String.toList_ofList]

/-- A text ends as what is put behind it does. -/
theorem Text.getLast?_append {a b : String} (filled : b ≠ "") :
    (a ++ b).toList.getLast? = b.toList.getLast? := by
  have chars : b.toList ≠ [] := fun none => filled (String.toList_eq_nil_iff.mp none)
  rw [String.toList_append, List.getLast?_append, List.getLast?_eq_some_getLast chars,
    Option.some_or]

namespace Swift

/-- The types that the scaffold declares or extends. -/
def scaffoldTypes : List String := Text.typesOf "struct " ": " (contentHead ++ appFoot)

theorem scaffoldTypes_eq : scaffoldTypes =
    ["ContentView", "ContentView_Previews", "GeneratedApp", "View", "PreviewProvider", "App"] := by
  unfold scaffoldTypes contentHead appFoot
  simp only [String.append_assoc]
  repeat rw [← String.ofList_append]
  rw [Text.typesOf_ofList]
  rfl

/-- The scaffold has the type of one name. -/
theorem viewName_mem_scaffoldTypes_iff {typeName : String} (filled : typeName ≠ "") :
    viewName typeName ∈ scaffoldTypes ↔ typeName = "Content" := by
  have last : (viewName typeName).toList.getLast? = some 'w' := Text.getLast?_append (by decide)
  have others : ∀ other ∈ ["ContentView_Previews", "GeneratedApp", "PreviewProvider", "App"],
      viewName typeName ≠ other := by
    have ends : ∀ other ∈ ["ContentView_Previews", "GeneratedApp", "PreviewProvider", "App"],
        other.toList.getLast? ≠ some 'w' := by decide
    exact fun other member same => ends other member (same ▸ last)
  have content : viewName typeName = "ContentView" ↔ typeName = "Content" :=
    @String.append_left_inj typeName "Content" "View"
  have base : viewName typeName ≠ "View" := fun same =>
    filled ((@String.append_left_inj typeName "" "View").mp same)
  simp only [List.forall_mem_cons] at others
  simp only [scaffoldTypes_eq, List.mem_cons, content, others, base, List.not_mem_nil, or_false]

/-- The views of the roots declare their types, whatever is in them. -/
theorem declaredNames_viewStructs {names bodies : List String} (code : String)
    (length : names.length = bodies.length) (isName : ∀ name ∈ names, IsName (viewName name)) :
    declaredNames "struct " (String.join (names.zipWith viewStruct bodies) ++ code) =
      names.map viewName ++ declaredNames "struct " code := by
  have keyword_eq : "struct ".toList = ['s', 't', 'r', 'u', 'c', 't', ' '] := rfl
  induction names generalizing bodies with
  | nil => rw [List.zipWith_nil_left, String.join_nil, String.empty_append]; rfl
  | cons name rest ih =>
      obtain ⟨body, bodies, rfl⟩ := List.exists_cons_of_length_eq_add_one length.symm
      obtain ⟨own, others⟩ := List.forall_mem_cons.mp isName
      have layout : String.join ((name :: rest).zipWith viewStruct (body :: bodies)) ++ code =
          "struct " ++ viewName name ++ ": View \x7b" ++ "\n" ++
            "    var body: some View \x7b" ++ "\n" ++ Text.indent 8 body ++ "\n" ++
            "    \x7d" ++ "\n" ++ "\x7d" ++ "\n" ++ "" ++ "\n" ++
            (String.join (rest.zipWith viewStruct bodies) ++ code) := by
        have opening : ": View \x7b\n    var body: some View \x7b\n" =
            ": View \x7b" ++ "\n" ++ "    var body: some View \x7b" ++ "\n" := rfl
        have closing : "\n    \x7d\n\x7d\n\n" =
            "\n" ++ "    \x7d" ++ "\n" ++ "\x7d" ++ "\n" ++ "" ++ "\n" := rfl
        rw [List.zipWith_cons_cons, String.join_cons, viewStruct, opening, closing]
        simp only [String.append_assoc]
      have head : declaredNames "struct " ("struct " ++ viewName name ++ ": View \x7b") =
          [viewName name] :=
        Text.declaredNames_keyword (by decide) own (by decide) (by decide)
      have lines : ∀ line ∈ ["    var body: some View \x7b", "    \x7d", "\x7d", ""],
          declaredNames "struct " line = [] := by
        have other : ∀ line ∈ ["    var body: some View \x7b", "    \x7d", "\x7d", ""],
            Text.OneLine line ∧ line.toList.head? ≠ some 's' := by decide
        exact fun line member =>
          Text.declaredNames_inner keyword_eq (other line member).1 (other line member).2
      simp only [List.forall_mem_cons] at lines
      rw [layout]
      simp only [declaredNames_below, head, lines,
        Text.declaredNames_indent keyword_eq (by decide) 7, List.append_nil,
        ih (Nat.succ.inj length) others, List.map_cons, List.cons_append, List.nil_append]

theorem declaredNames_useLines {names : List String} (code : String)
    (isName : ∀ name ∈ names, IsName (viewName name)) :
    declaredNames "struct " (String.join (names.map useLine) ++ code) =
      declaredNames "struct " code := by
  have keyword_eq : "struct ".toList = ['s', 't', 'r', 'u', 'c', 't', ' '] := rfl
  induction names with
  | nil => rw [List.map_nil, String.join_nil, String.empty_append]
  | cons name rest ih =>
      obtain ⟨own, others⟩ := List.forall_mem_cons.mp isName
      have line : declaredNames "struct " ("            " ++ viewName name ++ "()") = [] := by
        refine Text.declaredNames_inner keyword_eq ?_ (by simp [String.toList_append])
        simp only [Text.oneLine_append, own.oneLine]
        decide
      have layout : String.join ((name :: rest).map useLine) ++ code =
          "            " ++ viewName name ++ "()" ++ "\n" ++
            (String.join (rest.map useLine) ++ code) := by
        have ending : "()\n" = "()" ++ "\n" := rfl
        rw [List.map_cons, String.join_cons, useLine, ending]
        simp only [String.append_assoc]
      rw [layout, declaredNames_below, line, ih others]
      rfl

/-- An application declares the types of the roots, then those of its scaffold. -/
theorem declaredNames_app (s : Settings) {forest : List Node}
    (isName : ∀ name ∈ typeNames forest, IsName (viewName name)) :
    declaredNames "struct " (app s forest) =
      (typeNames forest).map viewName ++
        ["ContentView", "ContentView_Previews", "GeneratedApp"] := by
  have length : (typeNames forest).length =
      (forest.map fun n => (view s.showLayerNames n).render 0).length := by
    rw [Design.length_typeNames, List.length_map]
  have layout : app s forest = "import SwiftUI" ++ "\n" ++ "" ++ "\n" ++
      (String.join ((typeNames forest).zipWith viewStruct
        (forest.map fun n => (view s.showLayerNames n).render 0)) ++
        (contentHead ++ (String.join ((typeNames forest).map useLine) ++ appFoot))) := by
    have opening : "import SwiftUI\n\n" = "import SwiftUI" ++ "\n" ++ "" ++ "\n" := rfl
    unfold app
    rw [opening]
    simp only [String.append_assoc]
  have imports : declaredNames "struct " "import SwiftUI" = [] ∧
      declaredNames "struct " "" = [] := by decide
  have first : declaredNames "struct "
      ("struct ContentView: View \x7b\n    var body: some View \x7b\n" ++
        "        VStack(alignment: .leading) \x7b") = ["ContentView"] := by
    repeat rw [← String.ofList_append]
    rw [Text.declaredNames_ofList]
    rfl
  have last : declaredNames "struct " appFoot = ["ContentView_Previews", "GeneratedApp"] := by
    unfold appFoot
    simp only [String.append_assoc]
    repeat rw [← String.ofList_append]
    rw [Text.declaredNames_ofList]
    rfl
  have scaffold : ∀ code : String, declaredNames "struct " (contentHead ++ code) =
      "ContentView" :: declaredNames "struct " code := by
    intro code
    have opening : contentHead ++ code =
        "struct ContentView: View \x7b\n    var body: some View \x7b\n" ++
          "        VStack(alignment: .leading) \x7b" ++ "\n" ++ code := by
      have ending : "        VStack(alignment: .leading) \x7b\n" =
          "        VStack(alignment: .leading) \x7b" ++ "\n" := rfl
      unfold contentHead
      rw [ending]
      simp only [String.append_assoc]
    rw [opening, declaredNames_below, first]
    rfl
  rw [layout, declaredNames_below, declaredNames_below, imports.1, imports.2,
    declaredNames_viewStructs _ length isName, scaffold, declaredNames_useLines _ isName, last]
  rfl

end Swift

namespace Dart

/-- The types that the scaffold declares or extends. -/
def scaffoldTypes (needsUi : Bool) : List String :=
  Text.typesOf "class " " extends " (appHead needsUi)

theorem scaffoldTypes_eq (needsUi : Bool) :
    scaffoldTypes needsUi = ["MyApp", "StatelessWidget"] := by
  unfold scaffoldTypes appHead
  cases needsUi
  all_goals
    simp only [Bool.false_eq_true, if_false, if_true, String.append_assoc]
    repeat rw [← String.ofList_append]
    rw [Text.typesOf_ofList]
    rfl

/-- The scaffold has the type of one name. -/
theorem className_mem_scaffoldTypes_iff (needsUi : Bool) (typeName : String) :
    className typeName ∈ scaffoldTypes needsUi ↔ typeName = "Stateless" := by
  have app : className typeName ≠ "MyApp" := by
    intro same
    have last : (className typeName).toList.getLast? = some 't' := Text.getLast?_append (by decide)
    rw [same] at last
    exact absurd last (by decide)
  have base : className typeName = "StatelessWidget" ↔ typeName = "Stateless" :=
    @String.append_left_inj typeName "Stateless" "Widget"
  simp only [scaffoldTypes_eq, List.mem_cons, app, base, List.not_mem_nil, or_false, false_or]

end Dart

/-! ## Applications -/

/-- The types of an application that shows a forest. -/
structure ApplicationTypes (s : Settings) (forest : List Node) : Prop where
  /-- A view is called like a type of the scaffold if and only if a root is called content. -/
  view : (∃ name ∈ typeNames forest, Swift.viewName name ∈ Swift.scaffoldTypes) ↔
    ∃ root ∈ forest, root.box.uniqueName = "content"
  /-- A widget is called like a type of the scaffold if and only if a root is called stateless. -/
  widget : ∀ needsUi : Bool,
    (∃ name ∈ typeNames forest, Dart.className name ∈ Dart.scaffoldTypes needsUi) ↔
      ∃ root ∈ forest, root.box.uniqueName = "stateless"
  declared : declaredNames "struct " (Swift.app s forest) =
    (typeNames forest).map Swift.viewName ++
      ["ContentView", "ContentView_Previews", "GeneratedApp"]
  /-- So no type is declared twice if and only if no root is called content. -/
  distinct : (declaredNames "struct " (Swift.app s forest)).Nodup ↔
    ∀ root ∈ forest, root.box.uniqueName ≠ "content"

section

variable {s : Settings} {host : Option Scene.Node} {roots : List Scene.Node} {forest : List Node}

theorem isName_viewName (built : Design.build s host roots = .ok forest) :
    ∀ name ∈ typeNames forest, IsName (Swift.viewName name) := by
  intro name member
  refine Text.isName_of_plain ?_
  rw [Swift.viewName, String.toList_append, List.forall_mem_append]
  have suffix : "View".toList.all Naming.isPlain = true := by decide
  exact ⟨fun c inside => .inr (Design.isPlain_of_mem_typeNames built member c inside),
    fun c inside => .inr (List.all_eq_true.mp suffix c inside)⟩

theorem content_mem_typeNames_iff (built : Design.build s host roots = .ok forest) :
    "Content" ∈ typeNames forest ↔ ∃ root ∈ forest, root.box.uniqueName = "content" :=
  Design.mem_typeNames_iff built (by decide) (by decide) (by decide) (by decide)

theorem stateless_mem_typeNames_iff (built : Design.build s host roots = .ok forest) :
    "Stateless" ∈ typeNames forest ↔ ∃ root ∈ forest, root.box.uniqueName = "stateless" :=
  Design.mem_typeNames_iff built (by decide) (by decide) (by decide) (by decide)

/-- The scaffold has the type of a view if and only if a root is called content. -/
theorem exists_viewName_mem_scaffoldTypes_iff (built : Design.build s host roots = .ok forest) :
    (∃ name ∈ typeNames forest, Swift.viewName name ∈ Swift.scaffoldTypes) ↔
      ∃ root ∈ forest, root.box.uniqueName = "content" := by
  have captured : ∀ name ∈ typeNames forest,
      (Swift.viewName name ∈ Swift.scaffoldTypes ↔ name = "Content") := fun name member =>
    Swift.viewName_mem_scaffoldTypes_iff (Design.ne_empty_of_mem_typeNames built member)
  rw [← content_mem_typeNames_iff built]
  constructor
  · rintro ⟨name, member, inside⟩
    exact (captured name member).mp inside ▸ member
  · exact fun member => ⟨"Content", member, (captured _ member).mpr rfl⟩

/-- The scaffold has the type of a widget if and only if a root is called stateless. -/
theorem exists_className_mem_scaffoldTypes_iff (built : Design.build s host roots = .ok forest)
    (needsUi : Bool) :
    (∃ name ∈ typeNames forest, Dart.className name ∈ Dart.scaffoldTypes needsUi) ↔
      ∃ root ∈ forest, root.box.uniqueName = "stateless" := by
  rw [← stateless_mem_typeNames_iff built]
  constructor
  · rintro ⟨name, member, inside⟩
    exact (Dart.className_mem_scaffoldTypes_iff needsUi name).mp inside ▸ member
  · exact fun member =>
      ⟨"Stateless", member, (Dart.className_mem_scaffoldTypes_iff needsUi _).mpr rfl⟩

theorem nodup_viewNames (forest : List Node) : ((typeNames forest).map Swift.viewName).Nodup := by
  have apart := Design.nodup_typeNames forest
  rw [List.nodup_iff_pairwise_ne, List.pairwise_map]
  exact apart.imp fun differ same => differ ((String.append_left_inj _).mp same)

/-- An application declares no type twice if and only if no root is called content. -/
theorem nodup_declaredNames_app_iff (built : Design.build s host roots = .ok forest)
    (t : Settings) : (declaredNames "struct " (Swift.app t forest)).Nodup ↔
      ∀ root ∈ forest, root.box.uniqueName ≠ "content" := by
  rw [Swift.declaredNames_app t (isName_viewName built), List.nodup_append]
  constructor
  · rintro ⟨-, -, apart⟩ root member same
    have captured := (content_mem_typeNames_iff built).mpr ⟨root, member, same⟩
    exact apart _ (List.mem_map_of_mem captured) "ContentView" List.mem_cons_self rfl
  · intro apart
    refine ⟨nodup_viewNames forest, by decide, ?_⟩
    rintro typeName member other inside rfl
    obtain ⟨name, among, rfl⟩ := List.mem_map.mp member
    have scaffold : Swift.viewName name ∈ Swift.scaffoldTypes := by
      rw [Swift.scaffoldTypes_eq]
      exact List.mem_append_left ["View", "PreviewProvider", "App"] inside
    obtain ⟨root, shown, same⟩ :=
      (exists_viewName_mem_scaffoldTypes_iff built).mp ⟨name, among, scaffold⟩
    exact apart root shown same

/-- The types of the roots of every design are told from those of the scaffold, but for one name
in each language. -/
theorem applicationTypes_of_build (built : Design.build s host roots = .ok forest)
    (t : Settings) : ApplicationTypes t forest := by
  constructor
  case view => exact exists_viewName_mem_scaffoldTypes_iff built
  case widget => exact exists_className_mem_scaffoldTypes_iff built
  case declared => exact Swift.declaredNames_app t (isName_viewName built)
  case distinct => exact nodup_declaredNames_app_iff built t

/-- Two frames whose names differ in a blank. -/
theorem applicationTypes_of_build_frames :
    let frame (name : String) : Scene.Node := .mk { nodeType := "FRAME", name } []
    let s := Settings.defaults
    let roots := [frame "Card 1", frame "Card1"]
    let forest := (Design.ofSelection s none roots .empty).1
    Design.build s none roots = .ok forest ∧ typeNames forest = ["Card1", "Card12"] ∧
      ApplicationTypes s forest := by
  intro frame s roots forest
  have built : Design.build s none roots = .ok forest := rfl
  exact ⟨built, by decide +kernel, applicationTypes_of_build built s⟩

/-- The view of a frame called content is declared twice, and the widget of a frame called
stateless extends itself. -/
theorem not_apart_from_scaffold :
    let frame (name : String) : Scene.Node := .mk { nodeType := "FRAME", name } []
    let s := Settings.defaults
    let content := (Design.ofSelection s none [frame "Content"] .empty).1
    let stateless := (Design.ofSelection s none [frame "Stateless"] .empty).1
    Design.build s none [frame "Content"] = .ok content ∧
      declaredNames "struct " (Swift.app s content) =
        ["ContentView", "ContentView", "ContentView_Previews", "GeneratedApp"] ∧
      Design.build s none [frame "Stateless"] = .ok stateless ∧
      (typeNames stateless).map Dart.className = ["StatelessWidget"] ∧
      ∀ needsUi, "StatelessWidget" ∈ Dart.scaffoldTypes needsUi := by
  intro frame s content stateless
  have built : Design.build s none [frame "Content"] = .ok content := rfl
  have built' : Design.build s none [frame "Stateless"] = .ok stateless := rfl
  have names : typeNames content = ["Content"] := by decide +kernel
  have names' : typeNames stateless = ["Stateless"] := by decide +kernel
  refine ⟨built, ?_, built', ?_, fun needsUi => ?_⟩
  · rw [Swift.declaredNames_app s (isName_viewName built), names]
    rfl
  · rw [names']
    rfl
  · rw [Dart.scaffoldTypes_eq]
    exact List.mem_cons_of_mem _ List.mem_cons_self

end

end Handoff
