import Handoff.Text.CaseData

/-!
# Letter case

Upper-case and lower-case mappings of characters and of texts.  A character may map to
several, and the capital sigma at the end of a word has a lower-case form of its own, so
the lower case of a text is not that of its characters one by one.

`upper`, `lower` and `capitalizeWords` are what a text node's case transform applies.
-/

namespace Handoff.Text

/-- The character with the given code point. -/
def ofCode (code : Int) : Char :=
  Char.ofNat code.toNat

/-- The mapping of a code point by a run, if the run covers it. -/
def CaseRun.image? (r : CaseRun) (code : Nat) : Option Char :=
  if r.first ≤ code ∧ code ≤ r.last ∧ (code - r.first) % r.stride = 0 then
    some (ofCode (code + r.offset))
  else none

/-- Whether a code point lies in one of the ranges. -/
def inRanges (ranges : List (Nat × Nat)) (c : Char) : Bool :=
  ranges.any fun (first, last) => first ≤ c.toNat && c.toNat ≤ last

/-- The mapping of a character by runs and expansions; the character itself when none
applies. -/
def mapCase (runs : List CaseRun) (expansions : List (Nat × List Nat)) (c : Char) :
    List Char :=
  match runs.findSome? (·.image? c.toNat) with
  | some d => [d]
  | none =>
    match expansions.lookup c.toNat with
    | some codes => codes.map fun code => Char.ofNat code
    | none => [c]

/-- The upper case of a character. -/
def upperChar (c : Char) : List Char :=
  mapCase upperRuns upperExpansions c

/-- The lower case of a character outside any text. -/
def lowerChar (c : Char) : List Char :=
  mapCase lowerRuns lowerExpansions c

/-- Whether the first character of `cs` that counts has a case. -/
def startsCased (cs : List Char) : Bool :=
  match cs.dropWhile (inRanges caseIgnorableRanges) with
  | c :: _ => inRanges casedRanges c
  | [] => false

/-- The lower case of `c` between the text before it, nearest first, and the text after
it. -/
def lowerIn (before : List Char) (c : Char) (after : List Char) : List Char :=
  if c = 'Σ' then
    if startsCased before && !startsCased after then ['ς'] else ['σ']
  else lowerChar c

/-- The lower case of `cs` after the reversed text `before`. -/
def lowerFrom (before : List Char) : List Char → List Char
  | [] => []
  | c :: cs => lowerIn before c cs ++ lowerFrom (c :: before) cs

/-- The upper case of a text. -/
def upperChars (cs : List Char) : List Char :=
  cs.flatMap upperChar

/-- The lower case of a text. -/
def lowerChars (cs : List Char) : List Char :=
  lowerFrom [] cs

/-- Raises every character that stands at the start or after a space. -/
def capitalizeFrom (atStart : Bool) : List Char → List Char
  | [] => []
  | c :: cs => (if atStart then upperChar c else [c]) ++ capitalizeFrom (c == ' ') cs

/-- The upper case of a string. -/
def upper (s : String) : String :=
  String.ofList (upperChars s.toList)

/-- The lower case of a string. -/
def lower (s : String) : String :=
  String.ofList (lowerChars s.toList)

/-- Every space-separated word with its first character in upper case. -/
def capitalizeWords (s : String) : String :=
  String.ofList (capitalizeFrom true s.toList)

end Handoff.Text
