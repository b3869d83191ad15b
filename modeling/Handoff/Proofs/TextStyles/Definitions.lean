import Handoff.Proofs.Css.StyleSheet
import Handoff.Proofs.Dart.Printing
import Handoff.Proofs.Swift.Lines
import Handoff.Proofs.Tailwind.Scale
import Handoff.Proofs.Text.Declared
import Handoff.Target
import Mathlib.Data.List.Basic

/-!
The definitions of text styles in the code of each target.

A target writes one definition after another (`Framework.textStyles_eq`): a rule, a style object,
a variable or a view modifier.  Read as lines, a definition declares the name of its text style
and nothing else (`Framework.declaredNames_definition`), unless a line feed in the name of a
family breaks a line.
-/

namespace Handoff

open Design (Node TextGroup Typography)
open Text (OneLine oneLine_append IsName declaredNames declaredNames_below)

/-! ## One definition -/

namespace Framework

/-- What a target calls a text style. -/
def styleName (s : Settings) (g : TextGroup) : Framework → String
  | html => if s.jsx then Text.camel g.name else Text.kebab g.name
  | tailwind => Text.kebab g.name
  | flutter => Text.camel g.name
  | swiftUI => Text.pascal g.name

/-- What the definition of a text style begins with. -/
def styleKeyword (s : Settings) : Framework → String
  | html => if s.jsx then "const " else "."
  | tailwind => "."
  | flutter => "final "
  | swiftUI => "struct "

/-- The definition of a text style. -/
def styleDefinition (s : Settings) (g : TextGroup) : Framework → String
  | html =>
    if s.jsx then Html.styleObject (Text.camel g.name) (Css.typography g.typography)
    else (⟨Text.kebab g.name, Css.typography g.typography⟩ : Css.Rule).text
  | tailwind => Tailwind.textRule s g
  | flutter => Dart.textStyle g
  | swiftUI => Swift.textStyle g

/-- What stands between two definitions. -/
def styleSeparator : Framework → String
  | tailwind => "\n"
  | html | flutter | swiftUI => "\n\n"

/-- Whether the name of a family is kept from breaking lines: some targets write a line feed as
an escape. -/
def KeepsLines (g : TextGroup) : Framework → Prop
  | html | tailwind => OneLine g.typography.family
  | flutter | swiftUI => True

/-- The text styles are written one definition after another. -/
theorem textStyles_eq (s : Settings) (groups : List TextGroup) (f : Framework) :
    f.textStyles s groups =
      f.styleSeparator.intercalate (groups.map fun g => f.styleDefinition s g) := by
  cases f
  case html =>
    cases jsx : s.jsx <;>
      simp [textStyles, Html.textStyles, Css.styleSheet, styleDefinition, styleSeparator, jsx,
        Function.comp_def]
  all_goals rfl

end Framework

/-! ## Rules and style objects -/

namespace Css

theorem oneLine_px (v : Float) : OneLine (px v) := by
  rw [px, oneLine_append]
  exact ⟨Decimal.oneLine_plain v, by decide⟩

/-- The properties that a typography may set. -/
def typographyProperties : List String :=
  ["font-family", "font-size", "font-weight", "font-style", "line-height", "letter-spacing",
    "text-align", "text-transform", "text-decoration"]

theorem forall_mem_optional {P : Declaration → Prop} {property : String} {value : Option String} :
    (∀ d ∈ optional property value, P d) ↔ ∀ v, value = some v → P ⟨property, v⟩ := by
  cases value <;> simp [optional]

theorem oneLine_typographyProperties :
    ∀ property ∈ typographyProperties, OneLine property ∧ OneLine (scriptName property) := by
  have table : ∀ property ∈ typographyProperties,
      OneLine property ∧ IsKebab (common property.toList) := by
    decide
  intro property member
  obtain ⟨line, kebab⟩ := table property member
  exact ⟨line, (Text.isName_of_plain fun c inside =>
    .inr (isPlain_scriptName kebab c inside)).oneLine⟩

/-- The declarations of a typography are of one line each. -/
theorem oneLine_typography {t : Typography} (line : OneLine t.family) :
    ∀ d ∈ typography t, d.property ∈ typographyProperties ∧ OneLine d.value := by
  have words : (∀ v, textAlign? t.align = some v → OneLine v) ∧
      (∀ v, textTransform? t.textCase = some v → OneLine v) ∧
      ∀ v, textDecoration? t.decoration = some v → OneLine v := by
    refine ⟨?_, ?_, ?_⟩
    · cases t.align <;> simp [textAlign?] <;> decide
    · cases t.textCase <;> simp [textTransform?] <;> decide
    · cases t.decoration <;> simp [textDecoration?] <;> decide
  have known : ∀ {property value : String}, property ∈ typographyProperties → OneLine value →
      property ∈ typographyProperties ∧ OneLine value := fun member line => ⟨member, line⟩
  simp only [typography, List.forall_mem_append, forall_mem_optional]
  refine ⟨⟨⟨⟨⟨⟨?fixed, ?italic⟩, ?height⟩, ?spacing⟩, ?align⟩, ?transform⟩, ?decoration⟩
  case fixed =>
    simp only [List.forall_mem_cons]
    exact ⟨known (by decide) (oneLine_family.mpr line), known (by decide) (oneLine_px _),
      known (by decide) (Text.oneLine_repr _), List.forall_mem_nil _⟩
  case italic =>
    split
    · exact List.forall_mem_singleton.mpr (known (by decide) (by decide))
    · exact List.forall_mem_nil _
  case height =>
    intro v height
    obtain ⟨h, -, rfl⟩ := Option.map_eq_some_iff.mp height
    exact known (by decide) (oneLine_px h)
  case spacing =>
    split
    · exact List.forall_mem_singleton.mpr (known (by simp [typographyProperties]) (oneLine_px _))
    · exact List.forall_mem_nil _
  case align => exact fun v own => known (by decide) (words.1 v own)
  case transform => exact fun v own => known (by decide) (words.2.1 v own)
  case decoration => exact fun v own => known (by decide) (words.2.2 v own)

/-- A rule declares its class. -/
theorem declaredNames_rule {r : Rule} (isName : IsName r.className)
    (lines : ∀ d ∈ r.declarations, d.property ∈ typographyProperties ∧ OneLine d.value) :
    declaredNames "." r.text = [r.className] := by
  have inner : ∀ line ∈ r.declarations.map (fun d => "  " ++ d.text ++ ";"),
      declaredNames "." line = [] := by
    intro line member
    obtain ⟨d, among, rfl⟩ := List.mem_map.mp member
    obtain ⟨property, value⟩ := lines d among
    have keyword_eq : ".".toList = ['.'] := rfl
    refine Text.declaredNames_inner keyword_eq ?_ (by simp [String.toList_append])
    simp only [Declaration.text, oneLine_append, value,
      (oneLine_typographyProperties _ property).1]
    decide
  have layout : r.text = "." ++ r.className ++ " \x7b" ++ "\n" ++
      "\n".intercalate (r.declarations.map fun d => "  " ++ d.text ++ ";") ++ "\n" ++ "\x7d" := by
    have opening : " \x7b\n" = " \x7b" ++ "\n" := rfl
    have closing : "\n\x7d" = "\n" ++ "\x7d" := rfl
    rw [Rule.text, opening, closing]
    simp only [String.append_assoc]
  rw [layout]
  exact Text.declaredNames_block (by decide) isName (by decide) (by decide)
    (Text.declaredNames_lines_eq_nil (by decide) inner) (by decide)

end Css

namespace Html

/-- A style object declares its name. -/
theorem declaredNames_styleObject {name : String} (isName : IsName name)
    {declarations : List Css.Declaration}
    (lines : ∀ d ∈ declarations, d.property ∈ Css.typographyProperties ∧ OneLine d.value) :
    declaredNames "const " (styleObject name declarations) = [name] := by
  have inner : ∀ line ∈ declarations.map (fun d => "  " ++ Markup.scriptProperty d ++ ","),
      declaredNames "const " line = [] := by
    intro line member
    obtain ⟨d, among, rfl⟩ := List.mem_map.mp member
    obtain ⟨property, value⟩ := lines d among
    have keyword_eq : "const ".toList = ['c', 'o', 'n', 's', 't', ' '] := rfl
    refine Text.declaredNames_inner keyword_eq ?_ (by simp [String.toList_append])
    simp only [Markup.scriptProperty, oneLine_append, Text.oneLine_styleString value,
      (Css.oneLine_typographyProperties _ property).2]
    decide
  have layout : styleObject name declarations = "const " ++ name ++ " = \x7b" ++ "\n" ++
      "\n".intercalate (declarations.map fun d => "  " ++ Markup.scriptProperty d ++ ",") ++ "\n" ++
      "\x7d;" := by
    have opening : " = \x7b\n" = " = \x7b" ++ "\n" := rfl
    have closing : "\n\x7d;" = "\n" ++ "\x7d;" := rfl
    rw [styleObject, opening, closing]
    simp only [String.append_assoc]
  rw [layout]
  exact Text.declaredNames_block (by decide) isName (by decide) (by decide)
    (Text.declaredNames_lines_eq_nil (by decide) inner) (by decide)

end Html

/-! ## Rules of utility classes -/

namespace Tailwind

/-- Steps of one line make classes of one line. -/
theorem oneLine_scaled {rounding : Bool} {scale : List Step} {v : Float} {stem : String}
    (steps : ∀ step ∈ scale, OneLine step.suffix) (line : OneLine stem) :
    OneLine ((scaled rounding scale v).after stem) := by
  have own : ∀ step ∈ scale, OneLine (step.toSuffix.after stem) := by
    intro step member
    rw [Step.toSuffix]
    split
    · exact line
    · simp only [Suffix.after, oneLine_append, line, steps step member]
      decide
  rcases scaled_cases rounding scale v with ⟨step, member, chosen, -⟩ | length
  · rw [chosen]
    exact own step member
  · rw [length]
    simp only [Suffix.after, oneLine_append, line, Decimal.oneLine_plain]
    decide

theorem oneLine_fontSizeScale : ∀ step ∈ fontSizeScale, OneLine step.suffix := by
  decide +kernel

theorem oneLine_named {stem word : String} (front : OneLine stem) (back : OneLine word) :
    OneLine (Utility.named stem word).text := by
  simp only [Utility.named, Utility.text, Suffix.after, oneLine_append, front, back]
  decide

theorem oneLine_family {name : String} (line : OneLine name) : OneLine (family name) := by
  have underscore : '\n' ∉ ['_'] := by decide
  unfold family
  split
  · simp only [oneLine_append, Text.oneLine_substitute underscore line]
    decide
  · simp only [oneLine_append, line]
    decide

theorem oneLine_weightName (w : Nat) : OneLine (Design.weightName w) := by
  unfold Design.weightName
  repeat' split
  all_goals decide

theorem oneLine_weight (w : Nat) : OneLine (weight w) := by
  unfold weight
  split
  · exact oneLine_weightName w
  · have digits : OneLine (toString w) := Text.oneLine_repr w
    simp only [oneLine_append, digits]
    decide

theorem oneLine_leading (height : Float) : OneLine (leading height) := by
  unfold leading
  dsimp only
  split
  · exact Text.oneLine_repr _
  · simp only [oneLine_append, Css.oneLine_px]
    decide

/-- The classes of a typography are of one line each. -/
theorem oneLine_typography (rounding : Bool) {t : Typography} (line : OneLine t.family) :
    ∀ u ∈ typography rounding t, OneLine u.text := by
  have sizeStem : OneLine "text" := by decide
  simp only [typography, List.forall_mem_append]
  refine ⟨⟨⟨⟨⟨⟨?fixed, ?italic⟩, ?height⟩, ?spacing⟩, ?align⟩, ?letters⟩, ?decoration⟩
  case fixed =>
    simp only [List.forall_mem_cons]
    exact ⟨oneLine_named (by decide) (oneLine_family line),
      oneLine_scaled oneLine_fontSizeScale sizeStem,
      oneLine_named (by decide) (oneLine_weight _), List.forall_mem_nil _⟩
  case italic =>
    split
    · exact List.forall_mem_singleton.mpr (by decide)
    · exact List.forall_mem_nil _
  case height =>
    intro u member
    obtain ⟨h, -, rfl⟩ := List.mem_map.mp member
    exact oneLine_named (by decide) (oneLine_leading h)
  case spacing =>
    split
    · refine List.forall_mem_singleton.mpr (oneLine_named (by decide) ?_)
      simp only [oneLine_append, Css.oneLine_px]
      decide
    · exact List.forall_mem_nil _
  case align => cases t.align <;> decide
  case letters => cases t.textCase <;> decide
  case decoration => cases t.decoration <;> decide

/-- The rule of a text style declares its class. -/
theorem declaredNames_textRule (s : Settings) {g : TextGroup} (isName : IsName (Text.kebab g.name))
    (line : OneLine g.typography.family) :
    declaredNames "." (textRule s g) = [Text.kebab g.name] := by
  have classes :
      OneLine (" ".intercalate (names (typography s.roundTailwindValues g.typography))) := by
    refine Text.oneLine_intercalate (by decide) fun text member => ?_
    obtain ⟨u, among, rfl⟩ := List.mem_map.mp member
    exact oneLine_typography _ line u among
  have inner : declaredNames "." ("  @apply " ++
      " ".intercalate (names (typography s.roundTailwindValues g.typography)) ++ ";") = [] := by
    have keyword_eq : ".".toList = ['.'] := rfl
    refine Text.declaredNames_inner keyword_eq ?_ (by simp [String.toList_append])
    simp only [oneLine_append, classes]
    decide
  have layout : textRule s g = "." ++ Text.kebab g.name ++ " \x7b" ++ "\n" ++ ("  @apply " ++
      " ".intercalate (names (typography s.roundTailwindValues g.typography)) ++ ";") ++ "\n" ++
      "\x7d" := by
    have opening : " \x7b\n  @apply " = " \x7b" ++ "\n" ++ "  @apply " := rfl
    have closing : ";\n\x7d" = ";" ++ "\n" ++ "\x7d" := rfl
    rw [textRule, opening, closing]
    simp only [String.append_assoc]
  rw [layout]
  exact Text.declaredNames_block (by decide) isName (by decide) (by decide) inner (by decide)

end Tailwind

/-! ## Variables -/

namespace Dart

open Handoff.Dart.Expr (raw call)

/-- Whether arguments have names, and values of one line. -/
def AreFields (args : List Arg) : Prop :=
  ∀ a ∈ args, ∃ name text, a = (some name, raw text) ∧ OneLine name ∧ OneLine text

theorem areFields_arg {name text : String} (front : OneLine name) (back : OneLine text) :
    AreFields (arg name (raw text)) :=
  List.forall_mem_singleton.mpr ⟨name, text, rfl, front, back⟩

theorem areFields_argOpt {name : String} {value : Option Expr} (front : OneLine name)
    (back : ∀ e, value = some e → ∃ text, e = raw text ∧ OneLine text) :
    AreFields (argOpt name value) := by
  intro a member
  obtain ⟨e, own, rfl⟩ := List.mem_map.mp member
  obtain ⟨text, rfl, line⟩ := back e (Option.mem_toList.mp own)
  exact ⟨name, text, rfl, front, line⟩

theorem AreFields.append {left right : List Arg} (first : AreFields left)
    (second : AreFields right) : AreFields (left ++ right) :=
  List.forall_mem_append.mpr ⟨first, second⟩

/-- The arguments of a text style are fields. -/
theorem areFields_textStyleArgs (t : Typography) : AreFields (textStyleArgs t) := by
  have family : OneLine (literal t.family) := by
    simp only [literal, oneLine_append, Text.oneLine_dart]
    decide
  have weight : OneLine ("FontWeight.w" ++
      toString (max 1 (min 9 (Decimal.roundDiv .awayFromZero t.weight 100)) * 100)) := by
    rw [oneLine_append]
    exact ⟨by decide, Text.oneLine_repr _⟩
  refine ((((((areFields_arg (by decide) family).append ?size).append
    (areFields_arg (by decide) weight)).append ?italic).append ?height).append ?spacing).append
    ?decoration
  case size => exact areFields_arg (by decide) (Decimal.oneLine_pointed _)
  case italic =>
    refine areFields_argOpt (by decide) fun e own => ?_
    split at own
    · exact ⟨_, (Option.some.inj own).symm, by decide⟩
    · cases own
  case height =>
    refine areFields_argOpt (by decide) fun e own => ?_
    split at own
    · obtain ⟨h, -, rfl⟩ := Option.map_eq_some_iff.mp own
      exact ⟨_, rfl, Decimal.oneLine_plain _⟩
    · cases own
  case spacing =>
    refine areFields_argOpt (by decide) fun e own => ?_
    split at own
    · exact ⟨_, (Option.some.inj own).symm, Decimal.oneLine_pointed _⟩
    · cases own
  case decoration =>
    refine areFields_argOpt (by decide) fun e own => ?_
    cases decoration : t.decoration with
    | none => rw [decoration] at own; cases own
    | underline =>
        rw [decoration] at own
        exact ⟨_, (Option.some.inj own).symm, by decide⟩
    | strikethrough =>
        rw [decoration] at own
        exact ⟨_, (Option.some.inj own).symm, by decide⟩

/-- A field is written on one line. -/
theorem AreFields.oneLine_argText {args : List Arg} (fields : AreFields args) (margin : Nat) :
    ∀ part ∈ args.map (argText margin), OneLine part := by
  refine List.forall_mem_map.mpr fun a member => ?_
  obtain ⟨name, text, rfl, field, value⟩ := fields a member
  have part : argText margin (some name, raw text) = name ++ ": " ++ text := rfl
  rw [part]
  simp only [oneLine_append, field, value]
  decide

/-- The parts of a call declare nothing. -/
theorem declaredNames_parts {keyword : String} {first : Char} {others : List Char}
    (keyword_eq : keyword.toList = first :: others) (inner : first ≠ ' ') {parts : List String}
    (lines : ∀ part ∈ parts, OneLine part) (code : String) :
    declaredNames keyword (block 2 parts ++ code) = declaredNames keyword code := by
  induction parts with
  | nil => rw [block, List.map_nil, String.join_nil, String.empty_append]
  | cons part rest ih =>
      obtain ⟨own, later⟩ := List.forall_mem_cons.mp lines
      have line : declaredNames keyword ("  " ++ part ++ ",") = [] := by
        refine Text.declaredNames_inner keyword_eq ?_ ?_
        · simp only [oneLine_append, own]
          decide
        · simpa [String.toList_append] using inner.symm
      have layout : block 2 (part :: rest) ++ code =
          ("  " ++ part ++ ",") ++ "\n" ++ (block 2 rest ++ code) := by
        have indent : Text.spaces 2 = "  " := rfl
        have ending : ",\n" = "," ++ "\n" := rfl
        rw [block_cons, indent, ending]
        simp only [String.append_assoc]
      rw [layout, declaredNames_below, line, ih later]
      rfl

/-- The definition of a text style declares a variable. -/
theorem declaredNames_textStyle {g : TextGroup} (isName : IsName (Text.camel g.name)) :
    declaredNames "final " (textStyle g) = [Text.camel g.name] := by
  have keyword_eq : "final ".toList = ['f', 'i', 'n', 'a', 'l', ' '] := rfl
  have lines := (areFields_textStyleArgs g.typography).oneLine_argText
  have laid := laidOut_call 0 "TextStyle" (textStyleArgs g.typography)
  rw [textStyle]
  generalize (call "TextStyle" (textStyleArgs g.typography)).render 0 = code at laid ⊢
  cases laid with
  | line =>
      have layout : ∀ text : String, "final " ++ Text.camel g.name ++ " = " ++ text ++ ";" =
          "final " ++ Text.camel g.name ++ (" = " ++ text ++ ";") := by
        intro text
        simp only [String.append_assoc]
      rw [layout]
      refine Text.declaredNames_keyword (by decide) isName ?_ (by simp [Text.endsName])
      simp only [oneLine_append, Text.oneLine_intercalate (by decide : OneLine ", ") (lines 0)]
      decide
  | block =>
      have layout : "final " ++ Text.camel g.name ++ " = " ++
          ("TextStyle" ++ "(" ++ "\n" ++
            block (0 + 2) ((textStyleArgs g.typography).map (argText (0 + 2))) ++
            Text.spaces 0 ++ ")") ++ ";" =
          "final " ++ Text.camel g.name ++ " = TextStyle(" ++ "\n" ++
            (block 2 ((textStyleArgs g.typography).map (argText 2)) ++ ");") := by
        have opening : " = TextStyle(" = " = " ++ ("TextStyle" ++ "(") := rfl
        have closing : ");" = Text.spaces 0 ++ (")" ++ ";") := rfl
        rw [opening, closing]
        simp only [String.append_assoc]
      rw [layout, declaredNames_below,
        Text.declaredNames_keyword (by decide) isName (by decide) (by decide),
        declaredNames_parts keyword_eq (by decide) (lines 2)]
      rfl

end Dart

/-! ## View modifiers -/

namespace Swift

/-- Modifiers below a code declare nothing. -/
theorem declaredNames_modifiers {keyword : String} {first : Char} {others : List Char}
    (keyword_eq : keyword.toList = first :: others) (inner : first ≠ ' ') {modifiers : List String}
    (lines : ∀ m ∈ modifiers, OneLine m) (code : String) :
    declaredNames keyword (code ++ String.join (modifiers.map (View.modifierText 12))) =
      declaredNames keyword code := by
  induction modifiers generalizing code with
  | nil => rw [List.map_nil, String.join_nil, String.append_empty]
  | cons m rest ih =>
      obtain ⟨own, later⟩ := List.forall_mem_cons.mp lines
      have line : declaredNames keyword ("            ." ++ m) = [] := by
        refine Text.declaredNames_inner keyword_eq ?_ ?_
        · rw [oneLine_append]
          exact ⟨by decide, own⟩
        · simpa [String.toList_append] using inner.symm
      have layout : code ++ String.join ((m :: rest).map (View.modifierText 12)) =
          code ++ "\n" ++ ("            ." ++ m) ++
            String.join (rest.map (View.modifierText 12)) := by
        have margin : "            ." = Text.spaces 12 ++ "." := rfl
        rw [List.map_cons, String.join_cons, View.modifierText, Text.substitute_of_oneLine own,
          margin]
        simp only [String.append_assoc]
      rw [layout, ih later, declaredNames_below, line, List.append_nil]

/-- The definition of a text style declares a type. -/
theorem declaredNames_textStyle {g : TextGroup} (isName : IsName (Text.pascal g.name)) :
    declaredNames "struct " (textStyle g) = [Text.pascal g.name] := by
  have keyword_eq : "struct ".toList = ['s', 't', 'r', 'u', 'c', 't', ' '] := rfl
  have body : declaredNames "struct "
      ("    func body(content: Content) -> some View \x7b" ++ "\n" ++ ("        content" ++
        String.join ((typography g.typography).map (View.modifierText 12))) ++ "\n" ++
        "    \x7d") = [] := by
    rw [declaredNames_below, declaredNames_below,
      declaredNames_modifiers keyword_eq (by decide)
        fun m member => (allVisible_typography g.typography m member).1]
    decide
  have layout : textStyle g = "struct " ++ Text.pascal g.name ++ ": ViewModifier \x7b" ++ "\n" ++
      ("    func body(content: Content) -> some View \x7b" ++ "\n" ++
        ("        content" ++
          String.join ((typography g.typography).map (View.modifierText 12))) ++
        "\n" ++ "    \x7d") ++ "\n" ++ "\x7d" := by
    have opening : ": ViewModifier \x7b\n" = ": ViewModifier \x7b" ++ "\n" := rfl
    have method : "    func body(content: Content) -> some View \x7b\n" =
        "    func body(content: Content) -> some View \x7b" ++ "\n" := rfl
    have margin : "        content" = Text.spaces 8 ++ "content" := rfl
    have closing : "\n    \x7d\n\x7d" = "\n" ++ "    \x7d" ++ "\n" ++ "\x7d" := rfl
    rw [textStyle, opening, method, margin, closing]
    simp only [View.leaf, View.modified, View.comment, View.head, View.children, View.modifiers,
      View.render, View.commentText, View.step, List.nil_append, String.empty_append,
      String.append_empty, String.append_assoc]
  rw [layout]
  exact Text.declaredNames_block (by decide) isName (by decide) (by decide) body (by decide)

end Swift

/-! ## The text styles of a design -/

namespace Framework

variable {g : TextGroup}

/-- A definition declares what the target calls the text style, and nothing else. -/
theorem declaredNames_definition (s : Settings) (snake : Text.IsSnake g.name.toList) (f : Framework)
    (lines : f.KeepsLines g) :
    declaredNames (f.styleKeyword s) (f.styleDefinition s g) = [f.styleName s g] := by
  cases f with
  | html =>
      have declarations := Css.oneLine_typography lines
      simp only [styleKeyword, styleDefinition, styleName]
      cases s.jsx with
      | true => exact Html.declaredNames_styleObject (Text.isName_camel snake) declarations
      | false => exact Css.declaredNames_rule (Text.isName_kebab snake) declarations
  | tailwind => exact Tailwind.declaredNames_textRule s (Text.isName_kebab snake) lines
  | flutter => exact Dart.declaredNames_textStyle (Text.isName_camel snake)
  | swiftUI => exact Swift.declaredNames_textStyle (Text.isName_pascal snake)

/-- The text styles declare their names in turn. -/
theorem declaredNames_textStyles (s : Settings) {groups : List TextGroup}
    (snake : ∀ g ∈ groups, Text.IsSnake g.name.toList) (f : Framework)
    (lines : ∀ g ∈ groups, f.KeepsLines g) :
    declaredNames (f.styleKeyword s) (f.textStyles s groups) =
      groups.map fun g => f.styleName s g := by
  have filled : f.styleKeyword s ≠ "" := by
    cases f <;> simp only [styleKeyword] <;> first | decide | (split <;> decide)
  have each : (groups.map fun g => f.styleDefinition s g).flatMap
      (declaredNames (f.styleKeyword s)) = groups.map fun g => f.styleName s g := by
    rw [List.flatMap_map, List.map_eq_flatMap]
    exact List.flatMap_congr fun g member =>
      declaredNames_definition s (snake g member) f (lines g member)
  rw [textStyles_eq, ← each]
  cases f with
  | tailwind => exact Text.declaredNames_lines filled _
  | html | flutter | swiftUI => exact Text.declaredNames_paragraphs filled _

end Framework

end Handoff
