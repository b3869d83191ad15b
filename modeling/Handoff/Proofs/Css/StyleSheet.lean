import Handoff.Proofs.Css.Properties
import Handoff.Proofs.Text.Declared

/-!
Reading a style sheet.

`readSheet` reads the rules of a style sheet off its lines.  A line that begins with a point opens a
rule, one that begins with a blank declares a property, and the others say nothing.  The lines are
read from the last to the first, so that the declarations of a rule are there when the line that
opens it is read.

A style sheet is read as the rules that it was printed from exactly if no value breaks a line
(`readSheet_styleSheet_iff`).  Of the values in the declarations of nodes only the family of a font
can do that (`oneLine_declarations_iff`).
-/

namespace Handoff.Css

open Design (Node)
open Text (OneLine oneLine_append IsName splitChars)

/-! ## Lines -/

/-- The declaration on a line: a property behind two blanks, and behind a colon and a blank a value
that ends in front of the last character. -/
def readDeclaration (line : List Char) : Declaration where
  property := String.ofList ((line.drop 2).takeWhile (· != ':'))
  value := String.ofList (((line.drop 2).dropWhile (· != ':')).drop 2).dropLast

/-- Reads a line in front of others, of which the declarations are known that come before the next
rule, and the rules from there on. -/
def readLine (line : List Char) (later : List Declaration × List Rule) :
    List Declaration × List Rule :=
  match line with
  | '.' :: name => ([], ⟨String.ofList (name.takeWhile (· != ' ')), later.1⟩ :: later.2)
  | ' ' :: _ => (readDeclaration line :: later.1, later.2)
  | _ => later

/-- Reads the lines of a text in front of others. -/
def readLines (text : String) (later : List Declaration × List Rule) :
    List Declaration × List Rule :=
  (splitChars '\n' text.toList).foldr readLine later

/-- The rules of a style sheet. -/
def readSheet (sheet : String) : List Rule := (readLines sheet ([], [])).2

section

variable {d : Declaration} {declarations : List Declaration} {r : Rule} {rules : List Rule}

theorem ne_of_isName {name : String} (isName : IsName name) :
    ∀ c ∈ name.toList, (c != ' ') = true ∧ (c != ':') = true := by
  intro c member
  have ends := (isName c member).1
  rw [Text.endsName, Bool.or_eq_false_iff] at ends
  rw [bne, bne, ends.1, ends.2, Bool.not_false]
  exact ⟨rfl, rfl⟩

/-- A declaration is read off the line that it is printed on. -/
theorem readDeclaration_text (named : IsName d.property) :
    readDeclaration ("  " ++ d.text ++ ";").toList = d := by
  have chars : ("  " ++ d.text ++ ";").toList.drop 2 =
      d.property.toList ++ ':' :: ' ' :: (d.value.toList ++ [';']) := by
    simp [Declaration.text, String.toList_append]
  have inside : ∀ c ∈ d.property.toList, (c != ':') = true :=
    fun c member => (ne_of_isName named c member).2
  rw [readDeclaration, chars, List.takeWhile_append_of_pos inside,
    List.dropWhile_append_of_pos inside, List.takeWhile_cons_of_neg (by decide),
    List.dropWhile_cons_of_neg (by decide), List.append_nil, String.ofList_toList]
  simp [String.ofList_toList]

theorem readLines_below (first second : String) (later : List Declaration × List Rule) :
    readLines (first ++ "\n" ++ second) later = readLines first (readLines second later) := by
  have feed : "\n".toList = ['\n'] := rfl
  rw [readLines, String.toList_append, String.toList_append, feed, List.append_assoc,
    List.singleton_append, Text.splitChars_append, List.foldr_append]
  rfl

theorem readLines_of_oneLine {text : String} (line : OneLine text)
    (later : List Declaration × List Rule) :
    readLines text later = readLine text.toList later := by
  rw [readLines, Text.splitChars_of_not_mem line, List.foldr_cons, List.foldr_nil]

/-! ## Rules -/

/-- A declaration is read in front of those below it. -/
theorem readLines_declaration (named : IsName d.property) (line : OneLine d.value) :
    readLines ("  " ++ d.text ++ ";") (declarations, rules) = (d :: declarations, rules) := by
  have single : OneLine ("  " ++ d.text ++ ";") := by
    simp only [Declaration.text, oneLine_append, named.oneLine, line]
    decide
  have front : ("  " ++ d.text ++ ";").toList = ' ' :: (" " ++ d.text ++ ";").toList := by
    simp [String.toList_append]
  rw [readLines_of_oneLine single, front, readLine, ← front, readDeclaration_text named]

/-- The declarations of a rule are read off the lines in its braces. -/
theorem readLines_declarations (named : ∀ d ∈ declarations, IsName d.property)
    (lines : ∀ d ∈ declarations, OneLine d.value) :
    readLines ("\n".intercalate (declarations.map fun d => "  " ++ d.text ++ ";")) ([], rules) =
      (declarations, rules) := by
  induction declarations with
  | nil => rfl
  | cons d rest ih =>
      obtain ⟨first, others⟩ := List.forall_mem_cons.mp named
      obtain ⟨line, below⟩ := List.forall_mem_cons.mp lines
      cases rest with
      | nil =>
          rw [List.map_singleton, String.intercalate_singleton, readLines_declaration first line]
      | cons e rest =>
          have later := ih others below
          rw [List.map_cons] at later
          rw [List.map_cons, List.map_cons, String.intercalate_cons_cons, readLines_below, later,
            readLines_declaration first line]

/-- A rule whose class and properties are written as names. -/
structure Rule.Named (r : Rule) : Prop where
  className : IsName r.className
  property : ∀ d ∈ r.declarations, IsName d.property

/-- A rule is read off its lines. -/
theorem readLines_rule (named : r.Named) (lines : ∀ d ∈ r.declarations, OneLine d.value) :
    readLines r.text ([], rules) = ([], r :: rules) := by
  have head : OneLine ("." ++ r.className ++ " \x7b") := by
    simp only [oneLine_append, named.className.oneLine]
    decide
  have front : ("." ++ r.className ++ " \x7b").toList =
      '.' :: (r.className.toList ++ [' ', '\x7b']) := by
    simp [String.toList_append]
  have inside : ∀ c ∈ r.className.toList, (c != ' ') = true :=
    fun c member => (ne_of_isName named.className c member).1
  have closing : readLines "\x7d" ([], rules) = ([], rules) := rfl
  have layout : r.text = "." ++ r.className ++ " \x7b" ++ "\n" ++
      "\n".intercalate (r.declarations.map fun d => "  " ++ d.text ++ ";") ++ "\n" ++ "\x7d" := by
    have opening : " \x7b\n" = " \x7b" ++ "\n" := rfl
    have ending : "\n\x7d" = "\n" ++ "\x7d" := rfl
    rw [Rule.text, opening, ending]
    simp only [String.append_assoc]
  rw [layout, readLines_below, readLines_below, closing,
    readLines_declarations named.property lines, readLines_of_oneLine head, front, readLine,
    List.takeWhile_append_of_pos inside, List.takeWhile_cons_of_neg (by decide), List.append_nil,
    String.ofList_toList]

/-! ## Style sheets -/

/-- A style sheet is read as the rules that it was printed from if no value breaks a line. -/
theorem readSheet_styleSheet (named : ∀ r ∈ rules, r.Named)
    (lines : ∀ r ∈ rules, ∀ d ∈ r.declarations, OneLine d.value) :
    readSheet (styleSheet rules) = rules := by
  have whole : readLines (styleSheet rules) ([], []) = ([], rules) := by
    induction rules with
    | nil => rfl
    | cons r rest ih =>
        obtain ⟨first, others⟩ := List.forall_mem_cons.mp named
        obtain ⟨line, below⟩ := List.forall_mem_cons.mp lines
        cases rest with
        | nil => exact readLines_rule first line
        | cons next rest =>
            have apart : styleSheet (r :: next :: rest) =
                r.text ++ "\n" ++ "" ++ "\n" ++ styleSheet (next :: rest) := by
              have gap : "\n\n" = "\n" ++ "" ++ "\n" := rfl
              rw [styleSheet, List.map_cons, List.map_cons, String.intercalate_cons_cons, gap]
              simp only [String.append_assoc]
              rfl
            have blank : readLines "" ([], next :: rest) = ([], next :: rest) := rfl
            rw [apart, readLines_below, ih others below, readLines_below, blank,
              readLines_rule first line]
  rw [readSheet, whole]

theorem oneLine_readDeclaration {line : List Char} (single : '\n' ∉ line) :
    OneLine (readDeclaration line).value := by
  rw [readDeclaration, Text.oneLine_ofList]
  exact fun feed => single (List.mem_of_mem_drop ((List.dropWhile_sublist _).mem
    (List.mem_of_mem_drop (List.dropLast_subset _ feed))))

/-- What is read off lines has no line feed in it. -/
theorem oneLine_foldr_readLine {lines : List (List Char)} (single : ∀ line ∈ lines, '\n' ∉ line) :
    (∀ d ∈ (lines.foldr readLine ([], [])).1, OneLine d.value) ∧
      ∀ r ∈ (lines.foldr readLine ([], [])).2, ∀ d ∈ r.declarations, OneLine d.value := by
  induction lines with
  | nil => exact ⟨List.forall_mem_nil _, List.forall_mem_nil _⟩
  | cons line rest ih =>
      obtain ⟨own, others⟩ := List.forall_mem_cons.mp single
      obtain ⟨pending, known⟩ := ih others
      rw [List.foldr_cons]
      unfold readLine
      split
      · exact ⟨List.forall_mem_nil _, List.forall_mem_cons.mpr ⟨pending, known⟩⟩
      · exact ⟨List.forall_mem_cons.mpr ⟨oneLine_readDeclaration own, pending⟩, known⟩
      · exact ⟨pending, known⟩

theorem oneLine_of_mem_readSheet {sheet : String} (member : r ∈ readSheet sheet) :
    ∀ d ∈ r.declarations, OneLine d.value :=
  (oneLine_foldr_readLine fun _ piece => Text.not_mem_of_mem_splitChars piece).2 r member

/-- A style sheet is read as the rules that it was printed from exactly if no value breaks a
line. -/
theorem readSheet_styleSheet_iff (named : ∀ r ∈ rules, r.Named) :
    readSheet (styleSheet rules) = rules ↔
      ∀ r ∈ rules, ∀ d ∈ r.declarations, OneLine d.value := by
  refine ⟨fun same r member => ?_, readSheet_styleSheet named⟩
  rw [← same] at member
  exact oneLine_of_mem_readSheet member

end

/-! ## The declarations of nodes -/

section

variable {parent : Option Node} {n : Node}

theorem isName_property {d : Declaration} (member : d ∈ declarations parent n) :
    IsName d.property := by
  have table : (("font-family" :: nodeProperties).all fun property =>
      property.toList.all fun c => !Text.endsName c && c != '\n') = true := by decide +kernel
  simp only [List.all_eq_true, Bool.and_eq_true, Bool.not_eq_true', bne_iff_ne] at table
  rcases mem_declarations member with ⟨listed, -⟩ | ⟨t, -, rfl⟩
  · exact table _ (List.mem_cons_of_mem _ listed)
  · exact table _ List.mem_cons_self

theorem oneLine_family {name : String} : OneLine (family name) ↔ OneLine name := by
  rw [OneLine, mem_family (by decide), OneLine]

/-- Of the values in the declarations of a node only the family of a font can break a line. -/
theorem oneLine_declarations_iff (parent : Option Node) (n : Node) :
    (∀ d ∈ declarations parent n, OneLine d.value) ↔
      ∀ t, n.box.style.text = some t → OneLine t.typography.family := by
  constructor
  · intro lines t text
    have line := lines _ (family_mem_declarations parent text)
    exact oneLine_family.mp line
  · intro families d member
    rcases mem_declarations member with ⟨-, value⟩ | ⟨t, text, rfl⟩
    · exact value.not_mem (by decide)
    · exact oneLine_family.mpr (families t text)

end

end Handoff.Css
