import Handoff.Json.Basic

/-!
# Warnings and errors

A selection is never refused for one of its nodes; what a target cannot show is left out
and reported.  `Reason` lists the causes, `Reason.text` words them, and
`Warning.distinct` keeps the first of equal warnings, in the order in which they were
raised.

A conversion as a whole fails only for the causes that `ConversionError` lists.
-/

namespace Handoff

/-- Why a part of a selection is missing from the code. -/
inductive Reason where
  /-- The type of a node is not known. -/
  | unsupportedType (nodeType : String)
  | gradientWithoutStops
  | radialGradient
  | angularGradient
  | diamondGradient
  | videoFill
  | unknownPaint
  | noiseEffect
  | textureEffect
  | unknownEffect
  | textImageFill
  | textFillNotSolid
  | multipleFills
  | multipleStrokes
  | imageStroke
  | strokeNotSolid
  | innerShadow
  | textInnerShadow
  | shadowSpread
  | backgroundBlur
  | wrapping
  /-- A reason in the words of whoever raises it. -/
  | worded (text : String)
deriving DecidableEq, Repr

/-- The wording of a reason. -/
def Reason.text : Reason → String
  | unsupportedType nodeType =>
    "unsupported node type '" ++ nodeType ++ "' rendered as a plain container"
  | gradientWithoutStops => "linear gradient without stops omitted"
  | radialGradient => "radial gradient is not supported and was omitted"
  | angularGradient => "angular gradient is not supported and was omitted"
  | diamondGradient => "diamond gradient is not supported and was omitted"
  | videoFill => "video fill is not supported and was omitted"
  | unknownPaint => "unknown paint type was omitted"
  | noiseEffect => "noise effect is not supported and was omitted"
  | textureEffect => "texture effect is not supported and was omitted"
  | unknownEffect => "unknown effect type was omitted"
  | textImageFill => "image fill on text is not supported and was omitted"
  | textFillNotSolid => "non-solid text fill is not supported and was omitted"
  | multipleFills => "multiple fills; only the topmost is emitted"
  | multipleStrokes => "multiple strokes; only the topmost is emitted"
  | imageStroke => "image stroke is not supported and was omitted"
  | strokeNotSolid => "non-solid stroke is not supported and was omitted"
  | innerShadow => "inner shadow is not supported and was omitted"
  | textInnerShadow => "inner shadow on text is not supported and was omitted"
  | shadowSpread => "shadow spread is not supported and was ignored"
  | backgroundBlur => "background blur is not supported and was omitted"
  | wrapping => "wrapping layout is not supported; children are laid out in one line"
  | worded text => text

/-- A part of a node that is missing from the code. -/
structure Warning where
  nodeId : String
  reason : Reason
deriving DecidableEq, Repr

namespace Warning

/-- Raises each of the reasons for one node. -/
def about (nodeId : String) (reasons : List Reason) : List Warning :=
  reasons.map (⟨nodeId, ·⟩)

/-- Appends a warning unless it is in the list already. -/
def record (log : List Warning) (w : Warning) : List Warning :=
  if w ∈ log then log else log ++ [w]

/-- The log after further warnings. -/
def recordAll (log raised : List Warning) : List Warning :=
  raised.foldl record log

/-- The first of equal warnings each, in order. -/
def distinct (raised : List Warning) : List Warning :=
  recordAll [] raised

/-- The warning on a line. -/
def line (w : Warning) : String := w.nodeId ++ ": " ++ w.reason.text

/-- Node and wording. -/
def toJson (w : Warning) : Json :=
  .obj [("nodeId", .str w.nodeId), ("reason", .str w.reason.text)]

theorem record_of_mem {log : List Warning} {w : Warning} (h : w ∈ log) : record log w = log :=
  if_pos h

theorem record_of_not_mem {log : List Warning} {w : Warning} (h : w ∉ log) :
    record log w = log ++ [w] :=
  if_neg h

/-- A log never lists a warning twice. -/
theorem nodup_recordAll {log : List Warning} (raised : List Warning) (h : log.Nodup) :
    (recordAll log raised).Nodup := by
  induction raised generalizing log with
  | nil => exact h
  | cons w rest ih =>
    refine ih ?_
    by_cases hw : w ∈ log
    · rwa [record_of_mem hw]
    · rw [record_of_not_mem hw, List.nodup_append]
      refine ⟨h, List.nodup_cons.2 ⟨List.not_mem_nil, List.nodup_nil⟩, fun a ha b hb => ?_⟩
      rw [List.mem_singleton.1 hb]
      exact fun heq => hw (heq ▸ ha)

theorem mem_record {log : List Warning} {w v : Warning} : v ∈ record log w ↔ v ∈ log ∨ v = w := by
  by_cases present : w ∈ log
  · rw [record_of_mem present]
    refine ⟨Or.inl, fun either => either.elim id ?_⟩
    rintro rfl
    exact present
  · rw [record_of_not_mem present, List.mem_append, List.mem_singleton]

theorem mem_recordAll {raised : List Warning} {v : Warning} {log : List Warning} :
    v ∈ recordAll log raised ↔ v ∈ log ∨ v ∈ raised := by
  induction raised generalizing log with
  | nil => simp [recordAll]
  | cons w rest ih =>
      have step : v ∈ recordAll log (w :: rest) ↔ v ∈ record log w ∨ v ∈ rest := ih
      rw [step, mem_record, List.mem_cons, or_assoc]

/-- No warning is lost when repeated ones are. -/
theorem mem_distinct {raised : List Warning} {v : Warning} :
    v ∈ distinct raised ↔ v ∈ raised := by
  simp [distinct, mem_recordAll]

/-- Raising more in turn goes on with the log that is there. -/
theorem recordAll_append (log first later : List Warning) :
    recordAll log (first ++ later) = recordAll (recordAll log first) later :=
  List.foldl_append

/-- What is in a log stays in front. -/
theorem prefix_recordAll (raised : List Warning) (log : List Warning) :
    log <+: recordAll log raised := by
  induction raised generalizing log with
  | nil => exact List.prefix_refl log
  | cons w rest ih =>
      have step : log <+: record log w := by
        by_cases present : w ∈ log
        · exact ⟨[], by rw [record_of_mem present, List.append_nil]⟩
        · exact ⟨[w], (record_of_not_mem present).symm⟩
      exact step.trans (ih (record log w))

/-- Nothing is added by what is in the log already. -/
theorem recordAll_of_forall_mem {log raised : List Warning} (present : ∀ w ∈ raised, w ∈ log) :
    recordAll log raised = log := by
  induction raised with
  | nil => rfl
  | cons w rest ih =>
      have step : recordAll log (w :: rest) = recordAll (record log w) rest := rfl
      rw [step, record_of_mem (present w List.mem_cons_self)]
      exact ih fun v member => present v (List.mem_cons_of_mem w member)

/-- The warnings of one sort in a log are the log of the warnings of that sort. -/
theorem filter_recordAll (sort : Warning → Bool) (raised : List Warning) (log : List Warning) :
    (recordAll log raised).filter sort = recordAll (log.filter sort) (raised.filter sort) := by
  induction raised generalizing log with
  | nil => rfl
  | cons w rest ih =>
      have step : recordAll log (w :: rest) = recordAll (record log w) rest := rfl
      rw [step, ih]
      by_cases present : w ∈ log
      · rw [record_of_mem present]
        by_cases ofSort : sort w = true
        · have kept : w ∈ log.filter sort := List.mem_filter.2 ⟨present, ofSort⟩
          rw [List.filter_cons_of_pos ofSort]
          exact congrArg (recordAll · _) (record_of_mem kept).symm
        · rw [List.filter_cons_of_neg ofSort]
      · rw [record_of_not_mem present, List.filter_append]
        by_cases ofSort : sort w = true
        · have absent : w ∉ log.filter sort := fun member => present (List.mem_filter.1 member).1
          rw [List.filter_cons_of_pos ofSort, List.filter_cons_of_pos ofSort, List.filter_nil]
          exact congrArg (recordAll · _) (record_of_not_mem absent).symm
        · rw [List.filter_cons_of_neg ofSort, List.filter_cons_of_neg ofSort, List.filter_nil,
            List.append_nil]

end Warning

/-! ## Errors -/

/-- Why there is no code at all. -/
inductive ConversionError where
  /-- Nothing that was selected is visible. -/
  | emptySelection
  | unknownPalette (name : String)
deriving DecidableEq, Repr

/-- The wording of an error. -/
def ConversionError.message : ConversionError → String
  | emptySelection => "Empty selection: select at least one visible layer"
  | unknownPalette name => "Unknown palette: " ++ name

end Handoff
