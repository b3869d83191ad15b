import Handoff.Json.Basic
import Handoff.Decimal.Reading
import Handoff.Text.Hexadecimal

/-!
# Reading JSON

`Json.read?` reads one value and nothing but white space around it.  The grammar is the
standard one, with three rules of its own: values nest at most 127 deep, a number must
be finite, and half of a surrogate pair is no character.

Every step takes the characters left and gives those left after it.  Recursion goes over
the depth that is left and, inside one array, object or string, over the size of the
text.
-/

namespace Handoff.Json

/-- A step of the reader: a result and the characters left, or nothing. -/
abbrev Step (α : Type) := List Char → Option (α × List Char)

/-- The characters that may stand between tokens. -/
def isSpace (c : Char) : Bool :=
  c == ' ' || c == '\n' || c == '\t' || c == '\r'

/-- The characters after leading space. -/
def skipSpace (cs : List Char) : List Char :=
  cs.dropWhile isSpace

/-- Takes `word` off the front. -/
def literal (word : List Char) (value : Json) : Step Json := fun cs =>
  if cs.take word.length = word then some (value, cs.drop word.length) else none

/-! ## Strings -/

/-- Four hexadecimal digits. -/
def hexQuad : Step Nat
  | a :: b :: c :: d :: rest => do
    let a ← Text.hexValue? a
    let b ← Text.hexValue? b
    let c ← Text.hexValue? c
    let d ← Text.hexValue? d
    return (((a * 16 + b) * 16 + c) * 16 + d, rest)
  | _ => none

/-- The character of a `u` escape, whose high half may need a second escape. -/
def unicodeEscape : Step Char := fun cs => do
  let (unit, rest) ← hexQuad cs
  if 0xDC00 ≤ unit ∧ unit ≤ 0xDFFF then none
  else if 0xD800 ≤ unit ∧ unit ≤ 0xDBFF then
    match rest with
    | '\\' :: 'u' :: rest =>
      let (low, rest) ← hexQuad rest
      if 0xDC00 ≤ low ∧ low ≤ 0xDFFF then
        return (Char.ofNat (0x10000 + (unit - 0xD800) * 0x400 + (low - 0xDC00)), rest)
      else none
    | _ => none
  else return (Char.ofNat unit, rest)

/-- The character of an escape, after its backslash. -/
def escaped : Step Char
  | '"' :: rest => some ('"', rest)
  | '\\' :: rest => some ('\\', rest)
  | '/' :: rest => some ('/', rest)
  | 'b' :: rest => some ('\x08', rest)
  | 'f' :: rest => some ('\x0c', rest)
  | 'n' :: rest => some ('\n', rest)
  | 'r' :: rest => some ('\r', rest)
  | 't' :: rest => some ('\t', rest)
  | 'u' :: rest => unicodeEscape rest
  | _ => none

/-- The rest of a string after its opening quote; `acc` holds what was read, last
character first. -/
def stringBody : (fuel : Nat) → (acc : List Char) → Step String
  | 0, _, _ => none
  | fuel + 1, acc, cs =>
    match cs with
    | '"' :: rest => some (String.ofList acc.reverse, rest)
    | '\\' :: rest => do
      let (c, rest) ← escaped rest
      stringBody fuel (c :: acc) rest
    | c :: rest => if c.toNat < 0x20 then none else stringBody fuel (c :: acc) rest
    | [] => none

/-- A string after its opening quote, of fewer than `size` characters. -/
def string (size : Nat) : Step String :=
  stringBody size []

/-! ## Numbers -/

/-- The digits at the front. -/
def digits (cs : List Char) : List Nat × List Char :=
  ((cs.takeWhile Char.isDigit).map (·.toNat - '0'.toNat), cs.dropWhile Char.isDigit)

/-- The exponent after its `e`: its sign and value. -/
def exponent : Step (Bool × Nat) := fun cs =>
  let (negative, cs) := match cs with
    | '-' :: rest => (true, rest)
    | '+' :: rest => (false, rest)
    | cs => (false, cs)
  match digits cs with
  | ([], _) => none
  | (ds, rest) => some ((negative, ds.foldl (fun n d => n * 10 + d) 0), rest)

/-- The largest exponent that is added up; past it a number is zero or too large. -/
def exponentLimit : Nat := Nat.pow 2 31

/-- The double of a significand with an exponent written out. -/
def scaled? (s : Decimal.Significand) (negativeExponent : Bool) (power : Nat) :
    Option Float :=
  if exponentLimit ≤ power then
    if s.value = 0 ∨ negativeExponent then some 0.0 else none
  else
    let e : Int := if negativeExponent then -power else power
    Decimal.Significand.toFloat? { s with exponent := s.exponent + e }

/-- A double with the sign of its number. -/
def signed (negative : Bool) (x : Float) : Json :=
  double (if negative then -x else x)

/-- A number without point and exponent: an integer if it fits into 64 bits. -/
def wholeNumber? (negative : Bool) (ds : List Nat) : Option Json :=
  let n : Nat := ds.foldl (fun n d => n * 10 + d) 0
  if negative then
    if n = 0 then some (double (-0.0))
    else if n ≤ Nat.pow 2 63 then some (int (-n))
    else ((Decimal.Significand.pushWhole ⟨0, 0⟩ ds).toFloat?).map (signed true)
  else if n < UInt64.size then some (int n)
  else ((Decimal.Significand.pushWhole ⟨0, 0⟩ ds).toFloat?).map (signed false)

/-- The part of a number after its sign. -/
def unsigned (negative : Bool) : Step Json := fun cs =>
  match digits cs with
  | ([], _) => none
  | (0 :: _ :: _, _) => none
  | (whole, rest) => do
    let s := Decimal.Significand.pushWhole ⟨0, 0⟩ whole
    let (s, hasFraction, rest) ← (match rest with
      | '.' :: rest =>
        match digits rest with
        | ([], _) => none
        | (ds, rest) => some (s.pushFraction ds, true, rest)
      | rest => some (s, false, rest))
    match rest with
    | 'e' :: rest | 'E' :: rest =>
      let ((negativeExponent, power), rest) ← exponent rest
      let x ← scaled? s negativeExponent power
      return (signed negative x, rest)
    | rest =>
      if hasFraction then
        let x ← s.toFloat?
        return (signed negative x, rest)
      else
        let value ← wholeNumber? negative whole
        return (value, rest)

/-- A number. -/
def number : Step Json
  | '-' :: rest => unsigned true rest
  | cs => unsigned false cs

/-! ## Values -/

/-- The items of an array after the first bracket or comma. -/
def items (value : Step Json) : (fuel : Nat) → (acc : List Json) → Step (List Json)
  | 0, _, _ => none
  | fuel + 1, acc, cs => do
    let (item, rest) ← value (skipSpace cs)
    match skipSpace rest with
    | ',' :: rest => items value fuel (item :: acc) rest
    | ']' :: rest => some ((item :: acc).reverse, rest)
    | _ => none

/-- The fields of an object after the first brace or comma. -/
def fields (size : Nat) (value : Step Json) :
    (fuel : Nat) → (acc : List (String × Json)) → Step (List (String × Json))
  | 0, _, _ => none
  | fuel + 1, acc, cs =>
    match skipSpace cs with
    | '"' :: rest => do
      let (name, rest) ← string size rest
      match skipSpace rest with
      | ':' :: rest =>
        let (item, rest) ← value (skipSpace rest)
        match skipSpace rest with
        | ',' :: rest => fields size value fuel (put acc name item) rest
        | '\x7d' :: rest => some (put acc name item, rest)
        | _ => none
      | _ => none
    | _ => none

/-- A value of fewer than `size` characters in which arrays and objects may still nest
`depth` deep. -/
def value (size : Nat) : (depth : Nat) → Step Json
  | depth, cs =>
    match cs with
    | 'n' :: _ => literal ['n', 'u', 'l', 'l'] null cs
    | 't' :: _ => literal ['t', 'r', 'u', 'e'] (bool true) cs
    | 'f' :: _ => literal ['f', 'a', 'l', 's', 'e'] (bool false) cs
    | '"' :: rest => (string size rest).map fun (s, rest) => (str s, rest)
    | '[' :: rest =>
      match depth with
      | 0 => none
      | depth + 1 =>
        match skipSpace rest with
        | ']' :: rest => some (arr [], rest)
        | rest => (items (value size depth) size [] rest).map fun (xs, rest) => (arr xs, rest)
    | '\x7b' :: rest =>
      match depth with
      | 0 => none
      | depth + 1 =>
        match skipSpace rest with
        | '\x7d' :: rest => some (obj [], rest)
        | rest =>
          (fields size (value size depth) size [] rest).map fun (fs, rest) => (obj fs, rest)
    | cs => number cs

/-- What begins like a number is read as one. -/
theorem value_number {size depth : Nat} {c : Char} {cs : List Char}
    (first : c = '-' ∨ c.isDigit = true) : value size depth (c :: cs) = number (c :: cs) := by
  have other : ∀ d : Char, d.isDigit = false → d ≠ '-' → c ≠ d := by
    rintro d noDigit noMinus rfl
    rcases first with rfl | digit
    · exact noMinus rfl
    · rw [noDigit] at digit
      cases digit
  rw [value]
  all_goals
    intro tail same
    exact other _ (by decide) (by decide) (List.cons.inj same).1

/-- How deep arrays and objects may nest. -/
def depthLimit : Nat := 127

/-- The value that a text holds, if it is JSON. -/
def read? (text : String) : Option Json :=
  match value (text.length + 1) depthLimit (skipSpace text.toList) with
  | some (json, rest) => if (skipSpace rest).isEmpty then some json else none
  | none => none

end Handoff.Json
