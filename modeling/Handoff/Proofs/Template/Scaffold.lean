import Handoff.Conversion
import Handoff.Proofs.Design.TypeNames
import Handoff.Proofs.Template.Rendering

/-!
The scaffolds around generated code as templates.

Pages and applications are put together from texts by `Html.page`, `Dart.app` and `Swift.app`.
Each of them is what a template gives (`Html.render_page`, `Dart.render_app`,
`Swift.render_app`): the template is well formed, every helper and block in it is known, and it
is rendered for every design, with each name and body of the design as it is.
-/

namespace Handoff

namespace Template

/-- A template is read from its characters. -/
theorem read?_ofList (cs : List Char) : read? (String.ofList cs) =
    (Source.read? (cs.length + 1) cs).bind fun source =>
      assemble [] [] (pieces true false source.lead source.tags) := by
  unfold read?
  rw [String.length_ofList, String.toList_ofList]
  rfl

/-- The value under a name. -/
def Operand.named (name : String) : Operand := .path [name]

/-- The data of a root of a design: the name of its type and the code of its body. -/
def rootData (root : String × String) : Json :=
  .obj [("name", .str root.1), ("body", .str root.2)]

end Template

open Template (Gives Operand read? read?_ofList render? render?_of_read rootData)
open Design (Node)

/-! ## Pages -/

namespace Html

/-- The template of a page. -/
def pageTemplate : String :=
  "<!DOCTYPE html>\n<html>\n<head>\n  <meta charset=\"utf-8\" />\n  <style>\n" ++
  "    body \x7b margin: 0; \x7d\n  </style>\n</head>\n<body>\n" ++
  "\x7b\x7bindent body 2\x7d\x7d\n</body>\n</html>\n"

/-- The data of a page. -/
def pageData (body : String) : Json := .obj [("body", .str body)]

def pageParts : List Template.Part :=
  [.text ("<!DOCTYPE html>\n<html>\n<head>\n  <meta charset=\"utf-8\" />\n  <style>\n" ++
    "    body \x7b margin: 0; \x7d\n  </style>\n</head>\n<body>\n"),
   .call "indent" [.named "body", .value (.int 2)],
   .text "\n</body>\n</html>\n"]

set_option maxRecDepth 10000 in
theorem read_pageTemplate : read? pageTemplate = some pageParts := by
  unfold pageTemplate pageParts
  -- The template is read from a list of characters.  Left as a text, it would be taken apart
  -- byte by byte for each of them.
  simp only [String.append_assoc]
  repeat rw [← String.ofList_append]
  rw [read?_ofList]
  rfl

/-- A page is rendered whatever its body is. -/
theorem render_page (body : String) : render? pageTemplate (pageData body) = some (page body) := by
  have gives : Gives pageParts (pageData body) _ :=
    .text _ (.indent (n := 2) rfl rfl (.text _ .nil))
  refine render?_of_read read_pageTemplate (gives.of_eq ?_)
  unfold page
  simp only [String.append_assoc, String.append_empty]

end Html

/-! ## Applications -/

section

variable (s : Settings) (forest : List Node)

namespace Design

/-- The code of the roots of a forest, each under the name of its root's type. -/
def namedRoots (code : Node → String) : List (String × String) :=
  (typeNames forest).zip (forest.map code)

theorem map_namedRoots_fst {α : Type} (code : Node → String) (use : String → α) :
    (namedRoots forest code).map (fun root => use root.1) = (typeNames forest).map use := by
  have bound : (typeNames forest).length ≤ (forest.map code).length := by
    rw [List.length_map]
    exact Nat.le_of_eq (length_typeNames forest)
  have names : (namedRoots forest code).map Prod.fst = typeNames forest :=
    List.map_fst_zip bound
  rw [← names, List.map_map]
  rfl

theorem map_namedRoots {α : Type} (code : Node → String) (write : String → String → α) :
    (namedRoots forest code).map (fun root => write root.1 root.2) =
      (typeNames forest).zipWith write (forest.map code) := by
  rw [namedRoots, List.zip, List.map_zipWith]

end Design

namespace Dart

/-- The template of an application. -/
def appTemplate : String :=
  "import 'package:flutter/material.dart';\n" ++
  "\x7b\x7b#if needs_ui\x7d\x7d\nimport 'dart:ui';\n\x7b\x7b/if\x7d\x7d\n" ++
  "\nvoid main() \x7b\n  runApp(const MyApp());\n\x7d\n\n" ++
  "class MyApp extends StatelessWidget \x7b\n  const MyApp(\x7bsuper.key\x7d);\n\n" ++
  "  @override\n  Widget build(BuildContext context) \x7b\n    return MaterialApp(\n" ++
  "      home: Scaffold(\n        body: SingleChildScrollView(\n          child: Column(\n" ++
  "            crossAxisAlignment: CrossAxisAlignment.start,\n            children: [\n" ++
  "\x7b\x7b#each widgets\x7d\x7d\n" ++
  "              const \x7b\x7bname\x7d\x7dWidget(),\n" ++
  "\x7b\x7b/each\x7d\x7d\n" ++
  "            ],\n          ),\n        ),\n      ),\n    );\n  \x7d\n\x7d\n" ++
  "\x7b\x7b#each widgets\x7d\x7d\n" ++
  "\nclass \x7b\x7bname\x7d\x7dWidget extends StatelessWidget \x7b\n" ++
  "  const \x7b\x7bname\x7d\x7dWidget(\x7bsuper.key\x7d);\n\n" ++
  "  @override\n  Widget build(BuildContext context) \x7b\n" ++
  "    return \x7b\x7bbody\x7d\x7d;\n  \x7d\n\x7d\n" ++
  "\x7b\x7b/each\x7d\x7d\n"

/-- The data of an application. -/
def appData : Json :=
  let widgets := Design.namedRoots forest fun n => (widget s.showLayerNames none n).render 4
  .obj [("needs_ui", .bool (listBlurs forest)), ("widgets", .ofList rootData widgets)]

def useParts : List Template.Part :=
  [.text "              const ", .value (.named "name"),
   .text ("Widget" ++ "(),\n")]

def classParts : List Template.Part :=
  [.text "\nclass ", .value (.named "name"),
   .text ("Widget" ++ " extends StatelessWidget \x7b\n" ++ "  const "), .value (.named "name"),
   .text ("Widget" ++ "(\x7bsuper.key\x7d);\n\n" ++
    "  @override\n  Widget build(BuildContext context) \x7b\n" ++ "    return "),
   .value (.named "body"), .text ";\n  \x7d\n\x7d\n"]

def appParts : List Template.Part :=
  [.text "import 'package:flutter/material.dart';\n",
   .block "if" [.named "needs_ui"] [.text "import 'dart:ui';\n"] [],
   .text ("\nvoid main() \x7b\n  runApp(const MyApp());\n\x7d\n\n" ++
    "class MyApp extends StatelessWidget \x7b\n  const MyApp(\x7bsuper.key\x7d);\n\n" ++
    "  @override\n  Widget build(BuildContext context) \x7b\n    return MaterialApp(\n" ++
    "      home: Scaffold(\n        body: SingleChildScrollView(\n          child: Column(\n" ++
    "            crossAxisAlignment: CrossAxisAlignment.start,\n            children: [\n"),
   .block "each" [.named "widgets"] useParts [],
   .text appFoot,
   .block "each" [.named "widgets"] classParts [],
   .text ""]

set_option maxRecDepth 10000 in
theorem read_appTemplate : read? appTemplate = some appParts := by
  unfold appTemplate appParts useParts classParts appFoot
  simp only [String.append_assoc]
  repeat rw [← String.ofList_append]
  rw [read?_ofList]
  rfl

theorem gives_useParts (root : String × String) :
    Gives useParts (rootData root) (useLine root.1) := by
  have gives : Gives useParts (rootData root) _ := .text _ (.string rfl (.text _ .nil))
  refine gives.of_eq ?_
  unfold useLine className
  simp only [String.append_assoc, String.append_empty]

theorem gives_classParts (root : String × String) :
    Gives classParts (rootData root) (widgetClass root.1 root.2) := by
  have gives : Gives classParts (rootData root) _ :=
    .text _ (.string rfl (.text _ (.string rfl (.text _ (.string rfl (.text _ .nil))))))
  refine gives.of_eq ?_
  unfold widgetClass className
  simp only [String.append_assoc, String.append_empty]

/-- An application is rendered whatever it shows. -/
theorem render_app : render? appTemplate (appData s forest) = some (app s forest) := by
  have gives : Gives appParts (appData s forest) _ :=
    .text _ (.cond rfl (.text _ .nil) (.text _ (.each rfl gives_useParts
      (.text _ (.each rfl gives_classParts (.text _ .nil))))))
  refine render?_of_read read_appTemplate (gives.of_eq ?_)
  rw [Design.map_namedRoots_fst, Design.map_namedRoots]
  unfold app appHead
  simp only [String.append_assoc, String.append_empty]

end Dart

namespace Swift

/-- The template of an application. -/
def appTemplate : String :=
  "import SwiftUI\n\n" ++
  "\x7b\x7b#each views\x7d\x7d\n" ++
  "struct \x7b\x7bname\x7d\x7dView: View \x7b\n    var body: some View \x7b\n" ++
  "\x7b\x7bindent body 8\x7d\x7d\n    \x7d\n\x7d\n\n" ++
  "\x7b\x7b/each\x7d\x7d\n" ++
  "struct ContentView: View \x7b\n    var body: some View \x7b\n" ++
  "        VStack(alignment: .leading) \x7b\n" ++
  "\x7b\x7b#each views\x7d\x7d\n" ++
  "            \x7b\x7bname\x7d\x7dView()\n" ++
  "\x7b\x7b/each\x7d\x7d\n" ++
  "        \x7d\n    \x7d\n\x7d\n\n" ++
  "#if DEBUG\nstruct ContentView_Previews: PreviewProvider \x7b\n" ++
  "    static var previews: some View \x7b\n        ContentView()\n    \x7d\n\x7d\n#endif\n\n" ++
  "@main\nstruct GeneratedApp: App \x7b\n    var body: some Scene \x7b\n" ++
  "        WindowGroup \x7b\n            ContentView()\n        \x7d\n    \x7d\n\x7d\n"

/-- The data of an application. -/
def appData : Json :=
  let views := Design.namedRoots forest fun n => (view s.showLayerNames n).render 0
  .obj [("views", .ofList rootData views)]

def structParts : List Template.Part :=
  [.text "struct ", .value (.named "name"),
   .text ("View" ++ ": View \x7b\n    var body: some View \x7b\n"),
   .call "indent" [.named "body", .value (.int 8)], .text "\n    \x7d\n\x7d\n\n"]

def useParts : List Template.Part :=
  [.text "            ", .value (.named "name"), .text ("View" ++ "()\n")]

def appParts : List Template.Part :=
  [.text "import SwiftUI\n\n",
   .block "each" [.named "views"] structParts [],
   .text contentHead,
   .block "each" [.named "views"] useParts [],
   .text appFoot]

set_option maxRecDepth 10000 in
theorem read_appTemplate : read? appTemplate = some appParts := by
  unfold appTemplate appParts structParts useParts contentHead appFoot
  simp only [String.append_assoc]
  repeat rw [← String.ofList_append]
  rw [read?_ofList]
  rfl

theorem gives_structParts (root : String × String) :
    Gives structParts (rootData root) (viewStruct root.1 root.2) := by
  have gives : Gives structParts (rootData root) _ :=
    .text _ (.string rfl (.text _ (.indent (n := 8) rfl rfl (.text _ .nil))))
  refine gives.of_eq ?_
  unfold viewStruct viewName
  simp only [String.append_assoc, String.append_empty]

theorem gives_useParts (root : String × String) :
    Gives useParts (rootData root) (useLine root.1) := by
  have gives : Gives useParts (rootData root) _ := .text _ (.string rfl (.text _ .nil))
  refine gives.of_eq ?_
  unfold useLine viewName
  simp only [String.append_assoc, String.append_empty]

/-- An application is rendered whatever it shows. -/
theorem render_app : render? appTemplate (appData s forest) = some (app s forest) := by
  have gives : Gives appParts (appData s forest) _ :=
    .text _ (.each rfl gives_structParts (.text _ (.each rfl gives_useParts (.text _ .nil))))
  refine render?_of_read read_appTemplate (gives.of_eq ?_)
  rw [Design.map_namedRoots, Design.map_namedRoots_fst]
  unfold app
  simp only [String.append_assoc, String.append_empty]

end Swift

end

/-! ## Text styles -/

namespace Text

/-- A text begins and ends with the given characters. -/
def Framed (first last : Char) (s : String) : Prop :=
  ∃ inner, s.toList = first :: (inner ++ [last])

section

variable {first last : Char}

theorem Framed.intercalate {line : String} {rest : List String} : Framed first last line →
    (∀ other ∈ rest, Framed first last other) →
      Framed first last ("\n".intercalate (line :: rest)) := by
  intro framed others
  induction rest generalizing line with
  | nil =>
      rw [String.intercalate_singleton]
      exact framed
  | cons next rest ih =>
      obtain ⟨inner, line_eq⟩ := framed
      obtain ⟨more, rest_eq⟩ := ih (others next List.mem_cons_self)
        (fun other member => others other (List.mem_cons_of_mem next member))
      refine ⟨inner ++ last :: '\n' :: first :: more, ?_⟩
      rw [String.intercalate_cons_cons, String.toList_append, String.toList_append, line_eq,
        rest_eq]
      simp only [List.cons_append, List.append_assoc, List.nil_append]
      rfl

/-- Of a framed line nothing but the line feed after it is white space to be removed. -/
theorem Framed.trim_line {s : String} (framed : Framed first last s)
    (starts : isBlank first = false) (ends : isBlank last = false) : trim (s ++ "\n") = s := by
  obtain ⟨inner, s_eq⟩ := framed
  have feed : "\n".toList = ['\n'] := rfl
  have chars : trimChars (first :: (inner ++ [last]) ++ ['\n']) = first :: (inner ++ [last]) := by
    have blank : isBlank '\n' = true := by decide
    unfold trimChars
    simp [starts, ends, blank]
  rw [trim, String.toList_append, s_eq, feed, chars, ← s_eq, String.ofList_toList]

end

theorem join_lines (line : String) (rest : List String) :
    String.join ((line :: rest).map (· ++ "\n")) = "\n".intercalate (line :: rest) ++ "\n" := by
  induction rest generalizing line with
  | nil =>
      rw [List.map_cons, String.join_cons, List.map_nil, String.join_nil, String.append_empty,
        String.intercalate_singleton]
  | cons next rest ih =>
      rw [List.map_cons, String.join_cons, ih next, String.intercalate_cons_cons,
        String.append_assoc, String.append_assoc, String.append_assoc]

end Text

namespace Tailwind

/-- The template of the text styles. -/
def textStylesTemplate : String :=
  "\x7b\x7b#each styles\x7d\x7d\n" ++
  ".\x7b\x7bname\x7d\x7d \x7b\n  @apply \x7b\x7bclasses\x7d\x7d;\n\x7d\n" ++
  "\x7b\x7b/each\x7d\x7d"

/-- The data of a text style. -/
def styleData (s : Settings) (g : Design.TextGroup) : Json :=
  .obj [("name", .str (Text.kebab g.name)),
    ("classes", .str (" ".intercalate (names (typography s.roundTailwindValues g.typography))))]

/-- The data of the text styles. -/
def textStylesData (s : Settings) (groups : List Design.TextGroup) : Json :=
  .obj [("styles", .ofList (styleData s) groups)]

def styleParts : List Template.Part :=
  [.text ".", .value (.named "name"), .text " \x7b\n  @apply ", .value (.named "classes"),
   .text (";\n\x7d" ++ "\n")]

def textStylesParts : List Template.Part :=
  [.text "", .block "each" [.named "styles"] styleParts [], .text ""]

set_option maxRecDepth 10000 in
theorem read_textStylesTemplate :
    Template.read? textStylesTemplate = some textStylesParts := by
  unfold textStylesTemplate textStylesParts styleParts
  simp only [String.append_assoc]
  repeat rw [← String.ofList_append]
  rw [read?_ofList]
  rfl

theorem gives_styleParts (s : Settings) (g : Design.TextGroup) :
    Gives styleParts (styleData s g) (textRule s g ++ "\n") := by
  have gives : Gives styleParts (styleData s g) _ :=
    .text _ (.string rfl (.text _ (.string rfl (.text _ .nil))))
  refine gives.of_eq ?_
  unfold textRule
  simp only [String.append_assoc, String.append_empty]

theorem framed_textRule (s : Settings) (g : Design.TextGroup) :
    Text.Framed '.' '\x7d' (textRule s g) := by
  refine ⟨(Text.kebab g.name).toList ++ (" \x7b\n  @apply ".toList ++
    ((" ".intercalate (names (typography s.roundTailwindValues g.typography))).toList ++
      [';', '\n'])), ?_⟩
  have opening : ".".toList = ['.'] := rfl
  have closing : ";\n\x7d".toList = [';', '\n', '\x7d'] := rfl
  unfold textRule
  simp only [String.toList_append, List.append_assoc, opening, closing, List.cons_append,
    List.nil_append]

/-- The text styles are rendered whatever they are; what is rendered ends in a line feed that
is removed. -/
theorem render_textStyles (s : Settings) (groups : List Design.TextGroup) :
    (render? textStylesTemplate (textStylesData s groups)).map Text.trim =
      some (textStyles s groups) := by
  have gives : Gives textStylesParts (textStylesData s groups) _ :=
    .text _ (.each rfl (gives_styleParts s) (.text _ .nil))
  rw [render?_of_read read_textStylesTemplate gives, textStyles, Option.map_some,
    String.append_empty, String.append_empty, String.empty_append]
  refine congrArg some ?_
  cases groups with
  | nil => rfl
  | cons g groups =>
      have framed : Text.Framed '.' '\x7d' ("\n".intercalate ((g :: groups).map (textRule s))) := by
        refine Text.Framed.intercalate (framed_textRule s g) fun other member => ?_
        obtain ⟨h, -, rfl⟩ := List.mem_map.mp member
        exact framed_textRule s h
      have joined := Text.join_lines (textRule s g) (groups.map (textRule s))
      rw [← List.map_cons, List.map_map] at joined
      exact (congrArg Text.trim joined).trans (framed.trim_line rfl rfl)

end Tailwind

end Handoff
