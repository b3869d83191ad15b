import Handoff.Artifact
import Handoff.Design.TextGroup
import Handoff.Design.TypeName
import Handoff.Settings.Basic
import Handoff.Swift.Node

/-!
# The SwiftUI target

The code is either the view of the selection (`snippet`) or an application with a view
type for each root (`app`).
-/

namespace Handoff.Swift

open Design (Node TextGroup)

/-- The view of a forest: that of its only root, or all roots in a stack. -/
def forestView (names : Bool) (forest : List Node) : View :=
  match forest.map (view names) with
  | [only] => only
  | roots => .group "VStack(alignment: .leading)" roots

/-- The code of a forest on its own. -/
def snippet (s : Settings) (forest : List Node) : String :=
  (forestView s.showLayerNames forest).render 0

/-- The name of the view type of a root. -/
def viewName (typeName : String) : String := typeName ++ "View"

/-- The view type of a root. -/
def viewStruct (typeName body : String) : String :=
  "struct " ++ viewName typeName ++ ": View \x7b\n    var body: some View \x7b\n" ++
  Text.indent 8 body ++ "\n    \x7d\n\x7d\n\n"

/-- The line that uses the view type of a root. -/
def useLine (typeName : String) : String :=
  "            " ++ viewName typeName ++ "()\n"

/-- What stands before the lines that use the view types. -/
def contentHead : String :=
  "struct ContentView: View \x7b\n    var body: some View \x7b\n" ++
  "        VStack(alignment: .leading) \x7b\n"

/-- What stands after the lines that use the view types. -/
def appFoot : String :=
  "        \x7d\n    \x7d\n\x7d\n\n" ++
  "#if DEBUG\nstruct ContentView_Previews: PreviewProvider \x7b\n" ++
  "    static var previews: some View \x7b\n        ContentView()\n    \x7d\n\x7d\n#endif\n\n" ++
  "@main\nstruct GeneratedApp: App \x7b\n    var body: some Scene \x7b\n" ++
  "        WindowGroup \x7b\n            ContentView()\n        \x7d\n    \x7d\n\x7d\n"

/-- An application that shows a forest. -/
def app (s : Settings) (forest : List Node) : String :=
  let typeNames := Design.typeNames forest
  let bodies := forest.map fun n => (view s.showLayerNames n).render 0
  "import SwiftUI\n\n" ++ String.join (typeNames.zipWith viewStruct bodies) ++ contentHead ++
    String.join (typeNames.map useLine) ++ appFoot

/-- The code in the scope that the settings ask for. -/
def code (s : Settings) (forest : List Node) : String :=
  match s.swiftUIScope with
  | .snippet => snippet s forest
  | .full => app s forest

/-- The code as the only artifact. -/
def artifacts (s : Settings) (forest : List Node) : List Artifact :=
  [⟨"Code", code s forest, .swift⟩]

/-- The view modifier of a text style. -/
def textStyle (g : TextGroup) : String :=
  "struct " ++ Text.pascal g.name ++ ": ViewModifier \x7b\n" ++
  "    func body(content: Content) -> some View \x7b\n" ++
  ((View.leaf "content").modified (typography g.typography)).render 8 ++ "\n    \x7d\n\x7d"

/-- The view modifiers of the text styles. -/
def textStyles (groups : List TextGroup) : String :=
  "\n\n".intercalate (groups.map textStyle)

end Handoff.Swift
