/-!
# Blank characters and lines

`isBlank` is the class of white space that trimming removes.  `lineChars` cuts a text at its
line feeds; a carriage return before one belongs to the line end, and a line feed at the
very end opens no further line.
-/

namespace Handoff.Text

/-- The characters with the property `White_Space`. -/
def isBlank (c : Char) : Bool :=
  (0x9 ≤ c.toNat && c.toNat ≤ 0xD) || c.toNat == 0x20 || c.toNat == 0x85 || c.toNat == 0xA0 ||
  c.toNat == 0x1680 || (0x2000 ≤ c.toNat && c.toNat ≤ 0x200A) || c.toNat == 0x2028 ||
  c.toNat == 0x2029 || c.toNat == 0x202F || c.toNat == 0x205F || c.toNat == 0x3000

/-- A text without the white space at both ends. -/
def trimChars (cs : List Char) : List Char :=
  ((cs.dropWhile isBlank).reverse.dropWhile isBlank).reverse

/-- A string without the white space at both ends. -/
def trim (s : String) : String :=
  String.ofList (trimChars s.toList)

/-- The pieces of a text between occurrences of `separator`; at least one. -/
def splitChars (separator : Char) : List Char → List (List Char)
  | [] => [[]]
  | c :: cs =>
    if c = separator then [] :: splitChars separator cs
    else
      match splitChars separator cs with
      | piece :: pieces => (c :: piece) :: pieces
      | [] => [[c]]

/-- A line without the carriage return at its end. -/
def dropReturn (line : List Char) : List Char :=
  match line.reverse with
  | '\r' :: rest => rest.reverse
  | _ => line

/-- The lines of a text: the part after the last line feed counts only if it is not
empty, and keeps its carriage return. -/
def lineChars (cs : List Char) : List (List Char) :=
  let pieces := splitChars '\n' cs
  let ended := pieces.dropLast.map dropReturn
  match pieces.getLast? with
  | some (c :: rest) => ended ++ [c :: rest]
  | _ => ended

/-- A run of spaces. -/
def spaces (width : Nat) : String :=
  String.ofList (List.replicate width ' ')

/-- Puts `width` spaces before every line that is not blank; a blank line becomes
empty. -/
def indentLine (width : Nat) (line : List Char) : List Char :=
  if line.all isBlank then [] else List.replicate width ' ' ++ line

/-- Indents every line of a text; a line feed at the end is lost. -/
def indent (width : Nat) (s : String) : String :=
  String.ofList
    (List.intercalate ['\n'] ((lineChars s.toList).map (indentLine width)))

/-! ## Searching -/

/-- Whether `needle` occurs in a text. -/
def occursIn (needle : List Char) : List Char → Bool
  | [] => needle.isEmpty
  | c :: cs => needle.isPrefixOf (c :: cs) || occursIn needle cs

/-- Every occurrence of a character replaced by a text. -/
def substitute (c : Char) (replacement : List Char) (s : String) : String :=
  String.ofList (s.toList.flatMap fun d => if d = c then replacement else [d])

end Handoff.Text
