import Handoff.Settings.Basic

/-!
# Arguments

`Command.ofArgs?` reads the words of a command line.  A flag or option may be given only
once; the value of an option is joined to it by `=` or is the next word, which then must
not begin with a dash; after `--` every word is a plain argument.
-/

namespace Handoff.CommandLine

/-- The flags of `convert`. -/
inductive Flag where
  /-- JSX attributes. -/
  | jsx
  /-- A style sheet instead of inline styles. -/
  | classes
  /-- Lengths snap to the Tailwind scale. -/
  | roundValues
  /-- Colors snap to palette entries. -/
  | roundColors
  /-- Layer names in the code. -/
  | layerNames
  /-- Widgets inside an application that runs. -/
  | full
  /-- The design is printed instead of code. -/
  | emitDesign
  /-- The whole conversion is printed as JSON. -/
  | json
deriving DecidableEq, Repr

/-- All flags. -/
def Flag.all : List Flag :=
  [jsx, classes, roundValues, roundColors, layerNames, full, emitDesign, json]

/-- The name of a flag without its dashes. -/
def Flag.name : Flag → String
  | jsx => "jsx"
  | classes => "classes"
  | roundValues => "round-values"
  | roundColors => "round-colors"
  | layerNames => "layer-names"
  | full => "full"
  | emitDesign => "emit-ir"
  | json => "json"

/-- The flag of a name. -/
def Flag.ofName? (name : String) : Option Flag :=
  all.find? (·.name == name)

/-- The options of `convert`, which have a value. -/
inductive ValueOption where
  /-- A file with stored settings. -/
  | settings
  /-- The name of a target. -/
  | framework
deriving DecidableEq, Repr

/-- The option of a name without its dashes. -/
def ValueOption.ofName? : String → Option ValueOption
  | "settings" => some settings
  | "framework" => some framework
  | _ => none

/-- What `convert` was told. -/
structure Request where
  /-- The file with the selection. -/
  scene : Option String
  settings : Option String
  framework : Option String
  flags : List Flag
deriving DecidableEq, Repr

namespace Request

/-- Nothing was told yet. -/
def empty : Request := ⟨none, none, none, []⟩

/-- Takes a plain argument, which is the file with the selection. -/
def withScene? (r : Request) (path : String) : Option Request :=
  if path.isEmpty ∨ r.scene.isSome then none else some { r with scene := some path }

/-- Takes a flag. -/
def withFlag? (r : Request) (f : Flag) : Option Request :=
  if f ∈ r.flags then none else some { r with flags := r.flags ++ [f] }

/-- Takes the value of an option; a file has a name. -/
def withOption? (r : Request) : ValueOption → String → Option Request
  | .settings, path =>
    if path.isEmpty ∨ r.settings.isSome then none else some { r with settings := some path }
  | .framework, name =>
    if r.framework.isSome then none else some { r with framework := some name }

end Request

/-! ## Words -/

/-- What a word of `convert` is. -/
inductive Word where
  | argument (text : String)
  | flag (f : Flag)
  /-- An option, with its value if that is joined to it. -/
  | option (o : ValueOption) (value : Option String)
  /-- Only plain arguments follow. -/
  | argumentsOnly

/-- Whether a word may be the value of the option before it. -/
def isValue (word : String) : Bool :=
  match word.toList with
  | '-' :: _ :: _ => false
  | _ => true

/-- A value without the `=` that joins it. -/
def joinedValue : List Char → String
  | '=' :: value => String.ofList value
  | value => String.ofList value

/-- The word for a name after two dashes, which may have a value joined to it. -/
def longWord? (cs : List Char) : Option Word :=
  let name := String.ofList (cs.takeWhile (· != '='))
  match cs.dropWhile (· != '=') with
  | [] =>
    ((Flag.ofName? name).map Word.flag).orElse fun _ =>
      (ValueOption.ofName? name).map fun o => .option o none
  | value => (ValueOption.ofName? name).map fun o => .option o (some (joinedValue value))

/-- What a word of `convert` is, if it is anything. -/
def word? (text : String) : Option Word :=
  match text.toList with
  | ['-', '-'] => some .argumentsOnly
  | '-' :: '-' :: cs => longWord? cs
  | ['-', 'f'] => some (.option .framework none)
  | '-' :: 'f' :: value => some (.option .framework (some (joinedValue value)))
  | '-' :: _ :: _ => none
  | _ => some (.argument text)

/-- Takes the words of `convert` one by one. -/
def Request.read? (r : Request) : List String → Option Request
  | [] => some r
  | text :: rest =>
    match word? text with
    | none => none
    | some (.argument path) => do (← r.withScene? path).read? rest
    | some (.flag f) => do (← r.withFlag? f).read? rest
    | some (.option o (some value)) => do (← r.withOption? o value).read? rest
    | some (.option o none) =>
      match rest with
      | [] => none
      | value :: rest =>
        if isValue value then do (← r.withOption? o value).read? rest else none
    | some .argumentsOnly => rest.foldlM Request.withScene? r

/-! ## Commands -/

/-- What the program is asked to do. -/
inductive Command where
  /-- Convert the selection in a file. -/
  | convert (scene : String) (request : Request)
  /-- List the palette of a name. -/
  | palette (name : String)
  /-- Tell name and version. -/
  | version
deriving DecidableEq, Repr

/-- The plain arguments among words that are nothing else. -/
def plainArguments? : List String → Option (List String)
  | [] => some []
  | text :: rest =>
    if text = "--" then some rest
    else if isValue text then (plainArguments? rest).map (text :: ·)
    else none

/-- The command of a command line; none if it cannot be understood. -/
def Command.ofArgs? : List String → Option Command
  | [] => none
  | first :: rest =>
    if first = "convert" then do
      let request ← Request.empty.read? rest
      let scene ← request.scene
      return .convert scene request
    else if first = "palette" then
      match plainArguments? rest with
      | some [name] => some (.palette name)
      | _ => none
    else if first = "--version" ∨ first.startsWith "-V" then some .version
    else none

end Handoff.CommandLine
