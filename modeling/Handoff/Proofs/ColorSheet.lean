import Handoff.Proofs.CodePanel
import Handoff.Proofs.Design.ColorNames
import Handoff.Proofs.Text.CodeLines

/-!
The colors of a conversion, on show and as an artifact.

A conversion lists its colors twice.  The artifact is written from the colors of the design, each
with the palette entry that it was matched with, and the colors on show have a name and a remark of
their own.  `SolidColor.line` writes a line from a color on show alone, and it is the line of the
artifact (`SolidColor.line_ofColor`).  Nothing in such a line breaks it, so the artifact has a line
for each color on show, in the same order (`sheet_of_convert`).
-/

namespace Handoff

open Design (Node ColorRef UsedColors)
open Text (OneLine oneLine_append Within isDenseChar isWordChar codeLines)

namespace Text

/-- Lines are found again between the line feeds that join them. -/
theorem codeLines_intercalate {lines : List String} (present : lines ≠ [])
    (each : ∀ line ∈ lines, OneLine line) : codeLines ("\n".intercalate lines) = lines := by
  induction lines with
  | nil => exact absurd rfl present
  | cons line rest ih =>
      obtain ⟨own, others⟩ := List.forall_mem_cons.mp each
      cases rest with
      | nil => rw [String.intercalate_singleton, codeLines_of_oneLine own]
      | cons next rest =>
          rw [String.intercalate_cons_cons, codeLines_below, codeLines_of_oneLine own,
            ih (List.cons_ne_nil next rest) others]
          rfl

end Text

/-! ## Lines -/

theorem Color.dense_hexAlpha (c : Color) : Within isDenseChar c.hexAlpha := by
  have pair : ∀ channel, ∀ d ∈ Text.hexPair (byte channel), isDenseChar d = true :=
    fun channel d member =>
      Text.isDenseChar_of_isWordChar (Text.within_hexPair (byte_lt channel) d member)
  rw [hexAlpha, Text.within_ofList]
  simp only [List.cons_append, List.forall_mem_cons, List.forall_mem_append]
  refine ⟨by decide, ⟨⟨pair c.r, pair c.g⟩, pair c.b⟩, ?_⟩
  split
  · exact List.forall_mem_nil _
  · exact pair c.a

/-- A color on show on a line: its hexadecimal text, its name if that is another text, and the
remark on it if there is one. -/
def SolidColor.line (c : SolidColor) : String :=
  let name := if c.name = c.hex then "" else " // " ++ c.name
  let remark := match c.remark with
    | some text => " (" ++ text ++ ")"
    | none => ""
  c.hex ++ ";" ++ name ++ remark

/-- What is written of a color is told from the color on show. -/
theorem SolidColor.line_ofColor (f : Framework) (c : ColorRef) :
    (ofColor f c).line = UsedColors.line c := by
  obtain ⟨color, called⟩ := c
  cases called with
  | none => simp [line, ofColor, UsedColors.line, ColorRef.remark]
  | some entry => rfl

/-- A color that is called by a word is written on one line. -/
theorem Design.ColorRef.Named.oneLine {c : ColorRef} (named : c.Named) :
    OneLine (UsedColors.line c) := by
  have hex : OneLine c.color.hexAlpha := c.color.dense_hexAlpha.not_mem rfl
  unfold UsedColors.line
  refine oneLine_append.mpr
    ⟨oneLine_append.mpr ⟨oneLine_append.mpr ⟨hex, by decide⟩, ?name⟩, ?remark⟩
  case name =>
    split
    · rename_i entry called
      split
      · decide
      · exact oneLine_append.mpr ⟨by decide, (named entry called).not_mem rfl⟩
    · decide
  case remark =>
    unfold ColorRef.remark
    split <;> rename_i given
    · split at given
      · split at given <;> cases given
        decide
      · cases given
    · decide

/-! ## The artifact -/

/-- The titles that lists of colors have. -/
def sheetTitles : List String := ["Colors", "Tailwind Colors"]

/-- The lists of colors among the artifacts of a conversion. -/
def Conversion.sheets (c : Conversion) : List Artifact :=
  c.artifacts.filter (sheetTitles.contains ·.title)

/-- Only the last artifact is a list of colors, and it is there if there are any. -/
theorem filter_sheetTitles (s : Settings) (forest : List Node) :
    (artifactsOf s forest).filter (sheetTitles.contains ·.title) =
      if (UsedColors.ofForest forest).solids = [] then []
      else [(UsedColors.ofForest forest).artifact s.framework] := by
  have code : (s.framework.artifacts s forest).filter (sheetTitles.contains ·.title) = [] := by
    refine List.filter_eq_nil_iff.mpr fun a member => ?_
    rcases title_of_mem_artifacts s forest member with title | title <;> rw [title] <;> decide
  have styles : ∀ groups language,
      sheetTitles.contains (textStylesArtifact s groups language).title = false :=
    fun _ _ => rfl
  have colors : ∀ used : UsedColors,
      sheetTitles.contains (used.artifact s.framework).title = true := by
    intro used
    cases s.framework <;> rfl
  have kept : ∀ (p : Artifact → Bool) (absent : Bool) (a : Artifact),
      (if absent then [] else [a]).filter p = if absent then [] else [a].filter p := by
    intro p absent a
    cases absent <;> rfl
  rw [artifactsOf, List.filter_append, List.filter_append, code, List.nil_append, kept, kept,
    List.filter_singleton, List.filter_singleton, styles, colors]
  simp only [List.isEmpty_iff, cond_false, cond_true, ite_self, List.nil_append]

/-- The colors of a conversion, on show and as an artifact. -/
structure ListsColors (c : Conversion) : Prop where
  /-- No artifact lists the colors where there are none. -/
  absent : c.colors = [] → c.sheets = []
  /-- Otherwise one does, and has a line for each of them, in the same order. -/
  present : c.colors ≠ [] → ∃ a, c.sheets = [a] ∧
    codeLines a.code = c.colors.map SolidColor.line

section

variable {s : Settings} {host : Option Scene.Node} {roots : List Scene.Node}

/-- Every conversion has an artifact that lists its colors if and only if there are any, with the
lines that are told from the colors on show. -/
theorem listsColors_of_convert {c : Conversion} (converted : convert s host roots = .ok c) :
    ListsColors c := by
  cases built : Design.build s host roots with
  | error cause =>
      unfold convert at converted
      rw [built] at converted
      cases converted
  | ok forest =>
      obtain ⟨colors, artifacts⟩ : c.colors = (UsedColors.ofForest forest).solidColors s.framework ∧
          c.artifacts = artifactsOf s forest := by
        unfold convert at converted
        rw [built] at converted
        cases converted
        exact ⟨rfl, rfl⟩
      have sheets : c.sheets = if (UsedColors.ofForest forest).solids = [] then []
          else [(UsedColors.ofForest forest).artifact s.framework] := by
        rw [Conversion.sheets, artifacts, filter_sheetTitles]
      have none : c.colors = [] ↔ (UsedColors.ofForest forest).solids = [] := by
        rw [colors, UsedColors.solidColors, List.map_eq_nil_iff]
      have lines : c.colors.map SolidColor.line =
          (UsedColors.ofForest forest).solids.map UsedColors.line := by
        rw [colors, UsedColors.solidColors, List.map_map]
        exact List.map_congr_left fun color _ => SolidColor.line_ofColor s.framework color
      have single : ∀ line ∈ (UsedColors.ofForest forest).solids.map UsedColors.line,
          OneLine line := by
        refine List.forall_mem_map.mpr fun color listed => ?_
        have used := (Design.usedOnce_of_build built).solids.mem listed
        have looked := Design.lookedUp_of_build built color
          (Design.mem_colorRefsOf_of_mem_solidUses used)
        exact looked.named.oneLine
      constructor
      case absent => exact fun empty => sheets.trans (if_pos (none.mp empty))
      case present =>
        intro filled
        have solids := mt none.mpr filled
        refine ⟨_, sheets.trans (if_neg solids), ?_⟩
        have code : ((UsedColors.ofForest forest).artifact s.framework).code =
            "\n".intercalate ((UsedColors.ofForest forest).solids.map UsedColors.line) := by
          cases s.framework <;> rfl
        rw [code, lines, Text.codeLines_intercalate (mt List.map_eq_nil_iff.mp solids) single]

/-- A red card with a white border has both colors listed. -/
theorem listsColors_of_convert_card :
    let card : Scene.Node :=
      .mk { nodeType := "FRAME", fills := [{ color := some (.rgb 1.0 0.0 0.0) }]
            strokes := [{ color := some .white }], strokeWeight := 1.0 } []
    ∃ c, convert Settings.defaults none [card] = .ok c ∧
      c.colors.map (·.hex) = ["#ff0000", "#ffffff"] ∧ ListsColors c := by
  intro card
  have converted : convert Settings.defaults none [card] = .ok _ := rfl
  exact ⟨_, converted, by decide +kernel, listsColors_of_convert converted⟩

end

end Handoff
