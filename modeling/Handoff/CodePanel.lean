import Handoff.Conversion

/-!
# The code panel

The design tool has a panel that asks for the code of a selection in one of a few
languages.  Its answers are made to be read in place: widget targets give the widgets
alone, there is always a block of text styles, and only the Tailwind languages list the
colors.
-/

namespace Handoff

open Design (Node TextGroup UsedColors)

/-- A language of the panel. -/
structure PanelLanguage where
  framework : Framework
  jsx : Bool
deriving DecidableEq, Repr

namespace PanelLanguage

/-- The language of an id. -/
def ofId? : String → Option PanelLanguage
  | "html" => some ⟨.html, false⟩
  | "html_jsx" => some ⟨.html, true⟩
  | "tailwind" => some ⟨.tailwind, false⟩
  | "tailwind_jsx" => some ⟨.tailwind, true⟩
  | "flutter" => some ⟨.flutter, false⟩
  | "swiftUI" => some ⟨.swiftUI, false⟩
  | _ => none

/-- The settings under which the panel shows a language. -/
def settings (l : PanelLanguage) (s : Settings) : Settings :=
  { s with
    framework := l.framework
    jsx := l.jsx
    flutterScope := .snippet
    swiftUIScope := .snippet }

/-- The blocks of a forest; the panel colors widget code as Swift and style sheets as
HTML. -/
def blocks (l : PanelLanguage) (s : Settings) (forest : List Node) : List Artifact :=
  let code := l.framework.artifacts s forest
  let textStyles := textStylesArtifact s (TextGroup.ofForest forest)
  match l.framework with
  | .html => code ++ [textStyles .html]
  | .tailwind => code ++ [(UsedColors.ofForest forest).artifact .tailwind, textStyles .html]
  | .flutter => code.map (fun a => ⟨a.title, a.code, .swift⟩) ++ [textStyles .swift]
  | .swiftUI => code.map (fun a => ⟨"SwiftUI", a.code, .swift⟩) ++ [textStyles .swift]

end PanelLanguage

/-- What the panel shows of a selection for a language id; nothing if the id is not
known. -/
def panelCode (id : String) (s : Settings) (roots : List Scene.Node) :
    Except ConversionError (List Artifact) :=
  match PanelLanguage.ofId? id with
  | none => .ok []
  | some l => (Design.build (l.settings s) none roots).map (l.blocks (l.settings s))

end Handoff
