import Handoff.Artifact
import Handoff.CodePanel
import Handoff.Color.Basic
import Handoff.Color.Hex
import Handoff.Color.Perceptual
import Handoff.ColorSheet
import Handoff.CommandLine.Arguments
import Handoff.CommandLine.Run
import Handoff.Conversion
import Handoff.Css.Declaration
import Handoff.Css.Node
import Handoff.Css.Style
import Handoff.Dart.Code
import Handoff.Dart.Expr
import Handoff.Dart.Value
import Handoff.Dart.Widget
import Handoff.Decimal.Binary
import Handoff.Decimal.Numeral
import Handoff.Decimal.Reading
import Handoff.Decimal.Power
import Handoff.Decimal.Rounding
import Handoff.Decimal.Shortest
import Handoff.Design.Enumeration
import Handoff.Design.Json
import Handoff.Design.Layout
import Handoff.Design.Node
import Handoff.Design.OfScene.Forest
import Handoff.Design.OfScene.Layout
import Handoff.Design.OfScene.Style
import Handoff.Design.Style
import Handoff.Design.TextGroup
import Handoff.Design.TypeName
import Handoff.Design.UsedColors
import Handoff.Html.Code
import Handoff.Json.Basic
import Handoff.Json.Decode
import Handoff.Json.Printer
import Handoff.Json.Reader
import Handoff.Markup.Element
import Handoff.Naming
import Handoff.Outline
import Handoff.Palette.Basic
import Handoff.Palette.Tables
import Handoff.Scene.Basic
import Handoff.Scene.Json
import Handoff.Scene.Vocabulary
import Handoff.Settings.Basic
import Handoff.Settings.Json
import Handoff.Swift.Code
import Handoff.Swift.Node
import Handoff.Swift.Value
import Handoff.Swift.View
import Handoff.Tailwind.Code
import Handoff.Tailwind.Node
import Handoff.Tailwind.Scale
import Handoff.Tailwind.Utility
import Handoff.Target
import Handoff.Template.Basic
import Handoff.Template.Reading
import Handoff.Template.Rendering
import Handoff.Text.Case
import Handoff.Text.CaseData
import Handoff.Text.Escape
import Handoff.Text.Hexadecimal
import Handoff.Text.Lines
import Handoff.Text.Words
import Handoff.Warning
import Handoff.Main
import Handoff.Proofs.Design.Correspondence
import Handoff.Proofs.Design.Coherence
import Handoff.Proofs.Naming
import Handoff.Proofs.Design.Names
import Handoff.Proofs.Design.Unmatched
import Handoff.Proofs.Html.Unmatched
import Handoff.Proofs.Distinct
import Handoff.Proofs.TargetIndependence
import Handoff.Proofs.Design.Omissions
import Handoff.Proofs.Design.WellFormed
import Handoff.Proofs.Emission
import Handoff.Proofs.HiddenContent
import Handoff.Proofs.Template.Rendering
import Handoff.Proofs.Template.Scaffold
import Handoff.Proofs.Outcome
import Handoff.Proofs.Design.Preorder
import Handoff.Proofs.Html.Classes
import Handoff.Proofs.Markup.Structure
import Handoff.Proofs.Reporting
import Handoff.Proofs.Design.Arrangement
import Handoff.Proofs.Drawing
import Handoff.Proofs.Dart.Values
import Handoff.Proofs.Dart.Drawing
import Handoff.Proofs.Swift.Drawing
import Handoff.Proofs.Widgets
import Handoff.Proofs.SourceOrder
import Handoff.Proofs.TextStyles
import Handoff.Proofs.Application
import Handoff.Proofs.Dart.ParentData
import Handoff.Proofs.UsedColors
import Handoff.Proofs.CodePanel
import Handoff.Proofs.Design.RootWidth
import Handoff.Proofs.FullWidth
import Handoff.Proofs.Json.Numbers
import Handoff.Proofs.Json.Tokens
import Handoff.Proofs.Json.Spacing
import Handoff.Proofs.Json.Reading
import Handoff.Proofs.Scene.RoundTrip
import Handoff.Proofs.Design.RoundTrip
import Handoff.Proofs.Markup.Omissions
import Handoff.Proofs.Scene.Place
import Handoff.Proofs.Design.Flattening
import Handoff.Proofs.Text.Alphabet
import Handoff.Proofs.Html.Quotes
import Handoff.Proofs.Decimal.Unpacked
import Handoff.Proofs.Decimal.Thresholds
import Handoff.Proofs.Tailwind.Scale
import Handoff.Proofs.Design.LayoutFacts
import Handoff.Proofs.Css.Layout
import Handoff.Proofs.Tailwind.Names
import Handoff.Proofs.Tailwind.Layout
import Handoff.Proofs.LayoutAgreement
import Handoff.Proofs.Design.BareGroup
import Handoff.Proofs.Swift.Stacks
import Handoff.Proofs.Tailwind.Alphabet
import Handoff.Proofs.Tailwind.FontClass
import Handoff.Proofs.Tailwind.ClassLists
import Handoff.Proofs.Text.Quoting
import Handoff.Proofs.Literals
import Handoff.Proofs.Text.Marks
import Handoff.Proofs.Markup.Contents
import Handoff.Proofs.Design.ColorNames
import Handoff.Proofs.Html.StyleStrings
import Handoff.Proofs.Text.Case
import Handoff.Proofs.Text.Wording
import Handoff.Proofs.Text.Indentation
import Handoff.Proofs.Design.Wording
import Handoff.Proofs.Dart.Wording
import Handoff.Proofs.Swift.Wording
import Handoff.Proofs.LineEnds
import Handoff.Proofs.Css.Properties
import Handoff.Proofs.Css.StyleSheet
import Handoff.Proofs.Markup.Comments
import Handoff.Proofs.Markup.Jsx
import Handoff.Proofs.Markup.Expression
import Handoff.Proofs.Dart.Chain
import Handoff.Proofs.Dart.Filling
import Handoff.Proofs.Dart.Clipping
import Handoff.Proofs.Dart.Decorations
import Handoff.Proofs.Dart.Effects
import Handoff.Proofs.Markup.Strokes
import Handoff.Proofs.Opacity.Exchange
import Handoff.Proofs.Opacity.Tally
import Handoff.Proofs.Opacity.Fading
import Handoff.Proofs.Opacity.Markup
import Handoff.Proofs.Opacity.Html
import Handoff.Proofs.Opacity.Tailwind
import Handoff.Proofs.Opacity.Dart
import Handoff.Proofs.Opacity.Swift
import Handoff.Proofs.PaintOpacity
import Handoff.Proofs.Design.TypeNames
import Handoff.Proofs.Text.Margins
import Handoff.Proofs.Text.CodeLines
import Handoff.Proofs.Dart.Printing
import Handoff.Proofs.Dart.Layout
import Handoff.Proofs.Dart.Leaves
import Handoff.Proofs.Dart.Lines
import Handoff.Proofs.Dart.Classes
import Handoff.Proofs.Swift.Printing
import Handoff.Proofs.Swift.Lines
import Handoff.Proofs.ColorSheet
import Handoff.Proofs.Settings.Merging
import Handoff.Proofs.Settings.Flags
import Handoff.Proofs.Color.Hex
import Handoff.Proofs.Design.Ids
import Handoff.Proofs.InferredLayouts
import Handoff.Proofs.Decimal.Order
import Handoff.Proofs.Decimal.Magnitude
import Handoff.Proofs.Decimal.Units
import Handoff.Proofs.Decimal.Powers
import Handoff.Proofs.Decimal.Vanishing
import Handoff.Proofs.Color.Distance
import Handoff.Proofs.Palette.Lightness
import Handoff.Proofs.Palette.Nearest
import Handoff.Proofs.Decimal.Nearest
import Handoff.Proofs.Decimal.Numerals
import Handoff.Proofs.Decimal.Significance
import Handoff.Proofs.Decimal.Results
import Handoff.Proofs.Decimal.Distances
import Handoff.Proofs.Tailwind.Lengths
import Handoff.Proofs.Tailwind.Rotations
