import Handoff.CodePanel
import Handoff.CommandLine.Arguments
import Handoff.Design.Json
import Handoff.Json.Printer
import Handoff.Json.Reader
import Handoff.Palette.Basic
import Handoff.Scene.Json
import Handoff.Settings.Json

/-!
# Running a command

`run` maps a command line and the files that it may read to what is printed and to the
code that the program ends with: 0 after success, 1 after an error, 2 when the command
line cannot be understood.

Files are read in the order selection, settings, and the first thing that goes wrong
decides the error.
-/

namespace Handoff.CommandLine

/-- The text of a file by its path. -/
abbrev Files := String → Option String

/-- Why a command fails. -/
inductive Failure where
  | unreadableScene (path : String)
  | malformedScene (path : String)
  /-- The selection is JSON, but no nodes. -/
  | invalidScene
  | unreadableSettings (path : String)
  | malformedSettings (path : String)
  | unknownFramework (name : String)
  | conversion (cause : ConversionError)
deriving DecidableEq, Repr

/-- A word in single quotes. -/
def inQuotes (s : String) : String := "'" ++ s ++ "'"

/-- The wording of a failure. -/
def Failure.message : Failure → String
  | unreadableScene path => "read scene " ++ inQuotes path
  | malformedScene path => "parse scene " ++ inQuotes path
  | invalidScene => "invalid scene"
  | unreadableSettings path => "read settings " ++ inQuotes path
  | malformedSettings path => "parse settings " ++ inQuotes path
  | unknownFramework name => "unknown framework " ++ inQuotes name
  | conversion cause => cause.message

/-! ## Reading -/

/-- The roots of a selection: one node or an array of nodes. -/
def rootsOf? (json : Json) : Option (List Scene.Node) :=
  match json with
  | .arr _ => Scene.Node.forest? json
  | _ => (Scene.Node.ofJson? json).map ([·])

/-- The roots of the selection in a file. -/
def readScene (files : Files) (path : String) : Except Failure (List Scene.Node) := do
  let some text := files path | throw (.unreadableScene path)
  let some json := Json.read? text | throw (.malformedScene path)
  let some roots := rootsOf? json | throw .invalidScene
  return roots

/-- The settings stored in a file, or the defaults when no file is given. -/
def readSettings (files : Files) : Option String → Except Failure Settings
  | none => .ok .defaults
  | some path => do
    let some text := files path | throw (.unreadableSettings path)
    let some json := Json.read? text | throw (.malformedSettings path)
    return .ofStored json

/-- The settings after one flag. -/
def Flag.apply (s : Settings) : Flag → Settings
  | jsx => { s with jsx := true }
  | classes => { s with inlineStyle := false }
  | roundValues => { s with roundTailwindValues := true }
  | roundColors => { s with roundTailwindColors := true }
  | layerNames => { s with showLayerNames := true }
  | full => { s with flutterScope := .full, swiftUIScope := .full }
  | emitDesign | json => s

/-- The settings with what the command line says about them. -/
def Request.apply (r : Request) (s : Settings) : Except Failure Settings := do
  let framework ← match r.framework with
    | none => pure s.framework
    | some name =>
      match Framework.ofName? name with
      | some f => pure f
      | none => throw (.unknownFramework name)
  return r.flags.foldl Flag.apply { s with framework }

/-- The settings that a request is carried out with. -/
def Request.settingsIn (files : Files) (r : Request) : Except Failure Settings := do
  r.apply (← readSettings files r.settings)

/-! ## Printing -/

/-- What a program prints, and the code that it ends with. -/
structure Outcome where
  code : Nat
  stdout : String
  stderr : String
deriving DecidableEq, Repr

namespace Outcome

/-- Success, with warnings. -/
def success (stdout : String) (warnings : List Warning) : Outcome :=
  ⟨0, stdout, String.join (warnings.map fun w => "warning: " ++ w.line ++ "\n")⟩

/-- Failure after something was printed; only the first line of the wording is shown. -/
def failure (stdout : String) (cause : Failure) : Outcome :=
  ⟨1, stdout, "Error: " ++ String.ofList (cause.message.toList.takeWhile (· != '\n'))⟩

/-- The command line cannot be understood. -/
def misused : Outcome := ⟨2, "", ""⟩

end Outcome

/-- A text with a line end. -/
def onLine (s : String) : String := s ++ "\n"

/-- An artifact under its title. -/
def artifactText (a : Artifact) : String :=
  onLine ("// ---- " ++ a.title ++ " (" ++ a.language.word ++ ") ----") ++ onLine a.code ++ "\n"

/-- The design of a selection as JSON. -/
def printDesign (s : Settings) (roots : List Scene.Node) : Outcome :=
  match Design.build s none roots with
  | .ok forest => .success (onLine (Design.Node.forestJson forest).pretty) []
  | .error cause => .failure "" (.conversion cause)

/-- The message about a selection as JSON, also when it tells an error. -/
def printMessage (s : Settings) (roots : List Scene.Node) : Outcome :=
  let message := Message.ofSelection s none roots
  let text := onLine message.toJson.pretty
  match message with
  | .code _ => .success text []
  | .error cause => .failure text (.conversion cause)

/-- The artifacts of a selection, and its warnings beside them. -/
def printCode (s : Settings) (roots : List Scene.Node) : Outcome :=
  match convert s none roots with
  | .ok c => .success (String.join (c.artifacts.map artifactText)) c.warnings
  | .error cause => .failure "" (.conversion cause)

/-- Prints a palette. -/
def printPalette (name : String) : Outcome :=
  match Palette.listing name with
  | .ok entries => .success (String.join (entries.map fun e => onLine e.line)) []
  | .error cause => .failure "" (.conversion cause)

/-- Prints what was asked for of a selection. -/
def printSelection (r : Request) (s : Settings) (roots : List Scene.Node) : Outcome :=
  if .emitDesign ∈ r.flags then printDesign s roots
  else if .json ∈ r.flags then printMessage s roots
  else printCode s roots

/-- Converts the selection in a file. -/
def runConvert (files : Files) (scene : String) (r : Request) : Outcome :=
  let inputs := do
    let roots ← readScene files scene
    let settings ← r.settingsIn files
    return (settings, roots)
  match inputs with
  | .ok (settings, roots) => printSelection r settings roots
  | .error cause => .failure "" cause

/-- Name and version of the program. -/
def versionText : String := "sprig 0.1.0"

/-- Runs a command. -/
def Command.run (files : Files) : Command → Outcome
  | convert scene request => runConvert files scene request
  | palette name => printPalette name
  | version => .success (onLine versionText) []

/-- What the program does for a command line. -/
def run (files : Files) (args : List String) : Outcome :=
  match Command.ofArgs? args with
  | some command => command.run files
  | none => .misused

end Handoff.CommandLine
