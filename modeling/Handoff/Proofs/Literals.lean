import Handoff.Dart.Value
import Handoff.Proofs.Text.Quoting
import Handoff.Swift.Value

/-!
Literals of Dart and Swift.

A text becomes a literal by an escape table of its language, and the language reads a literal by
rules of its own (`Dart.quoting`, `Swift.quoting`).  The tables undo the rules for all texts, as
long as the reader does not mind the ends of lines (`literals_read`).  If he does, a literal is
read exactly if there is no carriage return in its text (`Dart.read_literal_iff`,
`Swift.read_literal_iff`): a line feed gets a backslash, and a carriage return stays.
-/

namespace Handoff

open Text (Escape Quoting)

namespace Dart

/-- What Dart reads behind a backslash. -/
def escapeOf : List Char → Escape
  | [] => .unknown
  | c :: cs =>
    match Text.controls.lookup c with
    | some meant => .means (some meant) 0
    | none =>
      if c = 'x' then
        (Text.fixedCode? 2 cs).elim .unknown fun (code, length) => .ofCode code length
      else if c = 'u' then
        .unicode (fun cs => (Text.fixedCode? 4 cs).or (Text.bracedCode? 6 cs)) cs
      else if c = '\n' ∨ c = '\r' then .unknown
      else .means (some c) 0

/-- Literals in single quotes, where an expression begins with a dollar sign. -/
def quoting : Quoting where
  quote := '\''
  opens := ['$']
  ends := ['\n', '\r']
  escape := escapeOf

theorem writes_dartEscape : quoting.Writes Text.dartEscape := by
  intro c
  unfold Text.dartEscape
  split
  · exact .inr ⟨by decide, '\\', rfl, fun _ => rfl⟩
  · exact .inr ⟨by decide, '\'', rfl, fun _ => rfl⟩
  · exact .inr ⟨by decide, '$', rfl, fun _ => rfl⟩
  · exact .inr ⟨by decide, 'n', rfl, fun _ => rfl⟩
  · exact .inl rfl

/-- Of the characters that need a backslash only the carriage return gets none. -/
theorem bare_dartEscape : ∀ c ∈ quoting.special, Text.dartEscape c = [c] ↔ c = '\r' :=
  List.all_iff_forall_prop.mp rfl

theorem toList_literal (s : String) :
    (literal s).toList =
      quoting.quote :: (s.toList.flatMap Text.dartEscape ++ [quoting.quote]) := by
  simp only [literal, Text.dart, Text.escapeWith, String.toList_append, String.toList_ofList]
  rfl

/-- A Dart literal is read as its text, and no further, exactly if there is no carriage return in
it. -/
theorem read_literal_iff (s : String) (rest : List Char) :
    quoting.read ((literal s).toList ++ rest) = .closed s.toList rest ↔ '\r' ∉ s.toList := by
  rw [toList_literal, List.cons_append, List.append_assoc, Quoting.read_quote,
    List.singleton_append, writes_dartEscape.scan_eq_closed_iff]
  exact Quoting.forall_escaped_iff bare_dartEscape (by decide)

end Dart

namespace Swift

/-- What Swift reads behind a backslash. -/
def escapeOf : List Char → Escape
  | [] => .unknown
  | c :: cs =>
    match [('0', '\x00'), ('\\', '\\'), ('t', '\t'), ('n', '\n'), ('r', '\r'), ('"', '"'),
        ('\'', '\'')].lookup c with
    | some meant => .means (some meant) 0
    | none =>
      if c = '(' then .expression
      else if c = 'u' then
        (Text.bracedCode? 8 cs).elim .unknown fun (code, length) => .ofCode code length
      else .unknown

/-- Literals in double quotes, where an expression begins with a backslash and a parenthesis. -/
def quoting : Quoting where
  quote := '"'
  opens := []
  ends := ['\n', '\r']
  escape := escapeOf
  quote_ne := Text.doubleQuote_ne

theorem writes_swiftEscape : quoting.Writes Text.swiftEscape := by
  intro c
  unfold Text.swiftEscape
  split
  · exact .inr ⟨by decide, '\\', rfl, fun _ => rfl⟩
  · exact .inr ⟨by decide, '"', rfl, fun _ => rfl⟩
  · exact .inr ⟨by decide, 'n', rfl, fun _ => rfl⟩
  · exact .inl rfl

/-- Of the characters that need a backslash only the carriage return gets none. -/
theorem bare_swiftEscape : ∀ c ∈ quoting.special, Text.swiftEscape c = [c] ↔ c = '\r' :=
  List.all_iff_forall_prop.mp rfl

theorem toList_literal (s : String) :
    (literal s).toList =
      quoting.quote :: (s.toList.flatMap Text.swiftEscape ++ [quoting.quote]) := by
  simp only [literal, Text.swift, Text.escapeWith, String.toList_append, String.toList_ofList]
  rfl

/-- A Swift literal is read as its text, and no further, exactly if there is no carriage return in
it. -/
theorem read_literal_iff (s : String) (rest : List Char) :
    quoting.read ((literal s).toList ++ rest) = .closed s.toList rest ↔ '\r' ∉ s.toList := by
  rw [toList_literal, List.cons_append, List.append_assoc, Quoting.read_quote,
    List.singleton_append, writes_swiftEscape.scan_eq_closed_iff]
  exact Quoting.forall_escaped_iff bare_swiftEscape (by decide)

end Swift

/-- Whatever its quotes, dollar signs, backslashes and line breaks are, a text is what a reader
finds in its literals who does not mind the ends of lines: no quote and no expression before the
end, and behind it whatever followed. -/
theorem literals_read (t : String) :
    let dart := Dart.quoting.acrossLines
    let swift := Swift.quoting.acrossLines
    (dart.scan 0 (Text.dart t).toList = .unclosed t.toList ∧
        ∀ rest, dart.read ((Dart.literal t).toList ++ rest) = .closed t.toList rest) ∧
      swift.scan 0 (Text.swift t).toList = .unclosed t.toList ∧
        ∀ rest, swift.read ((Swift.literal t).toList ++ rest) = .closed t.toList rest := by
  intro dart swift
  have inDart : ∀ c ∈ t.toList, dart.Understands Text.dartEscape c := fun c _ =>
    Dart.writes_dartEscape.understands_acrossLines (List.all_iff_forall_prop.mp rfl) c
  have inSwift : ∀ c ∈ t.toList, swift.Understands Text.swiftEscape c := fun c _ =>
    Swift.writes_swiftEscape.understands_acrossLines (List.all_iff_forall_prop.mp rfl) c
  refine ⟨⟨?_, fun rest => ?_⟩, ?_, fun rest => ?_⟩
  · rw [Text.dart, Text.escapeWith, String.toList_ofList]
    exact Quoting.scan_flatMap_eq_unclosed inDart
  · rw [Dart.toList_literal, List.cons_append, List.append_assoc]
    exact (Quoting.read_quote _).trans (Quoting.scan_flatMap_eq_closed inDart rest)
  · rw [Text.swift, Text.escapeWith, String.toList_ofList]
    exact Quoting.scan_flatMap_eq_unclosed inSwift
  · rw [Swift.toList_literal, List.cons_append, List.append_assoc]
    exact (Quoting.read_quote _).trans (Quoting.scan_flatMap_eq_closed inSwift rest)

end Handoff
