import Handoff.Json.Decode

/-!
# Enumerations

A closed set of values, each written as one lower-case word.  Unlike the vocabulary of
scenes, a word that is not listed does not read.
-/

namespace Handoff.Design

/-- A type of finitely many values, each with a word. -/
class Enumeration (α : Type) where
  /-- The word of a value. -/
  word : α → String
  /-- All values. -/
  all : List α
  /-- The word of a value is looked up as that value. -/
  find_word : ∀ a, all.find? (fun b => word b == word a) = some a

namespace Enumeration

variable {α : Type} [Enumeration α]

/-- The value of a word. -/
def ofWord? (s : String) : Option α :=
  (all : List α).find? fun a => word a == s

/-- Writing a value and reading its word gives the value back. -/
@[simp]
theorem ofWord?_word (a : α) : ofWord? (word a) = some a :=
  find_word a

/-- A value as its word. -/
def toJson (a : α) : Json := .str (word a)

/-- The value of a written word. -/
def ofJson? : Json.Decoder α := fun json => (Json.tag? json).bind ofWord?

end Enumeration

end Handoff.Design
