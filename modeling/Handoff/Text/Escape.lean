/-!
# Texts inside generated code

What a text becomes inside markup (`html`), inside a single-quoted Dart literal (`dart`)
and inside a double-quoted Swift literal (`swift`).  Each is one table of escapes,
applied character by character; `commentSafe` makes a text fit for a markup comment.
-/

namespace Handoff.Text

/-- A text with every character replaced by its escape. -/
def escapeWith (escape : Char → List Char) (s : String) : String :=
  String.ofList (s.toList.flatMap escape)

/-- The entity of a character that means something to markup. -/
def htmlEscape : Char → List Char
  | '&' => ['&', 'a', 'm', 'p', ';']
  | '<' => ['&', 'l', 't', ';']
  | '>' => ['&', 'g', 't', ';']
  | '"' => ['&', 'q', 'u', 'o', 't', ';']
  | c => [c]

/-- The escape of a character in a single-quoted Dart literal. -/
def dartEscape : Char → List Char
  | '\\' => ['\\', '\\']
  | '\'' => ['\\', '\'']
  | '$' => ['\\', '$']
  | '\n' => ['\\', 'n']
  | c => [c]

/-- The escape of a character in a double-quoted Swift literal. -/
def swiftEscape : Char → List Char
  | '\\' => ['\\', '\\']
  | '"' => ['\\', '"']
  | '\n' => ['\\', 'n']
  | c => [c]

/-- The escape of a double quote in a style string; everything else stays. -/
def quoteEscape : Char → List Char
  | '"' => ['\\', '"']
  | c => [c]

/-- Markup text. -/
def html (s : String) : String := escapeWith htmlEscape s

/-- The body of a single-quoted Dart literal. -/
def dart (s : String) : String := escapeWith dartEscape s

/-- The body of a double-quoted Swift literal. -/
def swift (s : String) : String := escapeWith swiftEscape s

/-- The body of a double-quoted style string. -/
def styleString (s : String) : String := escapeWith quoteEscape s

/-! ## Comments -/

/-- A text with every run of dashes cut to one. -/
def collapseDashes : List Char → List Char
  | [] => []
  | c :: cs =>
    if c = '-' ∧ cs.head? = some '-' then collapseDashes cs else c :: collapseDashes cs

/-- A text with a space put between an asterisk and a slash. -/
def separateClose : List Char → List Char
  | [] => []
  | c :: cs =>
    if c = '*' ∧ cs.head? = some '/' then c :: ' ' :: separateClose cs
    else c :: separateClose cs

/-- A text that can close neither kind of markup comment. -/
def commentSafe (s : String) : String :=
  String.ofList (separateClose (collapseDashes s.toList))

end Handoff.Text
