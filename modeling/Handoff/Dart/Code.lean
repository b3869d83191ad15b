import Handoff.Artifact
import Handoff.Dart.Widget
import Handoff.Design.TextGroup
import Handoff.Design.TypeName
import Handoff.Settings.Basic

/-!
# The Flutter target

The code is either the widget of the selection (`snippet`) or an application with a widget
class for each root (`app`).
-/

namespace Handoff.Dart

open Design (Node TextGroup)
open Handoff.Dart.Expr (raw call list)

/-- The widget of a forest: that of its only root, or all roots in a column. -/
def forestWidget (names : Bool) (forest : List Node) : Expr :=
  match forest.map (widget names none) with
  | [only] => only
  | roots =>
    call "Column"
      (arg "crossAxisAlignment" (raw "CrossAxisAlignment.start") ++
        arg "children" (list roots))

/-- The code of a forest on its own. -/
def snippet (s : Settings) (forest : List Node) : String :=
  (forestWidget s.showLayerNames forest).render 0

/-- The name of the class of a root. -/
def className (typeName : String) : String := typeName ++ "Widget"

/-- The line that uses the class of a root. -/
def useLine (typeName : String) : String :=
  "              const " ++ className typeName ++ "(),\n"

/-- The class of a root, whose body is the root's widget. -/
def widgetClass (typeName body : String) : String :=
  "\nclass " ++ className typeName ++ " extends StatelessWidget \x7b\n" ++
  "  const " ++ className typeName ++ "(\x7bsuper.key\x7d);\n\n" ++
  "  @override\n  Widget build(BuildContext context) \x7b\n" ++
  "    return " ++ body ++ ";\n  \x7d\n\x7d\n"

/-- What stands before the lines that use the classes. -/
def appHead (needsUi : Bool) : String :=
  "import 'package:flutter/material.dart';\n" ++
  (if needsUi then "import 'dart:ui';\n" else "") ++
  "\nvoid main() \x7b\n  runApp(const MyApp());\n\x7d\n\n" ++
  "class MyApp extends StatelessWidget \x7b\n  const MyApp(\x7bsuper.key\x7d);\n\n" ++
  "  @override\n  Widget build(BuildContext context) \x7b\n    return MaterialApp(\n" ++
  "      home: Scaffold(\n        body: SingleChildScrollView(\n          child: Column(\n" ++
  "            crossAxisAlignment: CrossAxisAlignment.start,\n            children: [\n"

/-- What stands between the lines that use the classes and the classes. -/
def appFoot : String :=
  "            ],\n          ),\n        ),\n      ),\n    );\n  \x7d\n\x7d\n"

/-- An application that shows a forest. -/
def app (s : Settings) (forest : List Node) : String :=
  let typeNames := Design.typeNames forest
  let bodies := forest.map fun n => (widget s.showLayerNames none n).render 4
  appHead (listBlurs forest) ++ String.join (typeNames.map useLine) ++ appFoot ++
    String.join (typeNames.zipWith widgetClass bodies)

/-- The code in the scope that the settings ask for. -/
def code (s : Settings) (forest : List Node) : String :=
  match s.flutterScope with
  | .snippet => snippet s forest
  | .full => app s forest

/-- The code as the only artifact. -/
def artifacts (s : Settings) (forest : List Node) : List Artifact :=
  [⟨"Code", code s forest, .dart⟩]

/-- The definition of a text style. -/
def textStyle (g : TextGroup) : String :=
  "final " ++ Text.camel g.name ++ " = " ++
    (call "TextStyle" (textStyleArgs g.typography)).render 0 ++ ";"

/-- The definitions of the text styles. -/
def textStyles (groups : List TextGroup) : String :=
  "\n\n".intercalate (groups.map textStyle)

end Handoff.Dart
