import Handoff.Json.Basic

/-!
# Artifacts

What a conversion hands back: named blocks of code, each with the language that it is
shown in.
-/

namespace Handoff

/-- The language of a block of code. -/
inductive Language where
  | html
  | css
  | javascript
  | swift
  | dart
  | plaintext
deriving DecidableEq, Repr

/-- The word for a language. -/
def Language.word : Language → String
  | html => "HTML"
  | css => "CSS"
  | javascript => "JAVASCRIPT"
  | swift => "SWIFT"
  | dart => "DART"
  | plaintext => "PLAINTEXT"

/-- A named block of code. -/
structure Artifact where
  title : String
  code : String
  language : Language
deriving DecidableEq, Repr

/-- Title, code and language. -/
def Artifact.toJson (a : Artifact) : Json :=
  .obj [("title", .str a.title), ("code", .str a.code), ("language", .str a.language.word)]

end Handoff
