import Handoff.Proofs.Html.Quotes

/-!
Texts in markup.

What stands between tags is a text with entities, breaks and, in JSX, groups around braces; what
names a layer is a text with entities.  Both are read back as they were, whatever the text is, be
it one with entities, tags or groups in it already: `contents_read`.

The entities come first, and the rest is made of what they leave (`textContent_eq`).
-/

namespace Handoff.Markup

open Text (Marks OnlyIn)

/-! ## Marks of markup -/

/-- The entities and what they stand for. -/
def entities : Marks :=
  [("&amp;".toList, '&'), ("&lt;".toList, '<'), ("&gt;".toList, '>'), ("&quot;".toList, '"')]

/-- What a line break is in the text of an element. -/
def lineBreak : Dialect → String
  | .html => "<br/>"
  | .jsx => "<br />"

/-- The group of a brace in JSX: an expression that is the brace. -/
def braceGroup (brace : Char) : String := String.ofList ['\x7b', '\'', brace, '\'', '\x7d']

/-- The groups of both braces. -/
def braceGroups : List String := [braceGroup '\x7b', braceGroup '\x7d']

/-- What a dialect has besides entities in the text of an element. -/
def ownMarks : Dialect → Marks
  | .html => [((lineBreak .html).toList, '\n')]
  | .jsx =>
    [((lineBreak .jsx).toList, '\n'), ((braceGroup '\x7b').toList, '\x7b'),
      ((braceGroup '\x7d').toList, '\x7d')]

/-- The marks in the text of an element. -/
def textMarks (dialect : Dialect) : Marks := ownMarks dialect ++ entities

/-- What a dialect makes of a character that the entities leave. -/
def breakEscape (dialect : Dialect) (c : Char) : List Char :=
  ((ownMarks dialect).find? (·.2 == c)).elim [c] (·.1)

/-- A text gets its entities first, then its breaks and groups. -/
theorem textContent_eq (dialect : Dialect) (s : String) :
    textContent dialect s = Text.escapeWith (breakEscape dialect) (Text.html s) := by
  have both : ∀ c, textEscape dialect c = (Text.htmlEscape c).flatMap (breakEscape dialect) := by
    intro c
    unfold textEscape
    split
    · decide
    · decide
    · decide
    · decide
    · rename_i html jsx opening closing
      unfold Text.htmlEscape
      split
      · cases dialect <;> decide
      · cases dialect <;> decide
      · cases dialect <;> decide
      · cases dialect <;> decide
      · cases dialect
        · have feed : ('\n' == c) = false := beq_false_of_ne fun same => html rfl same.symm
          simp [breakEscape, ownMarks, feed]
        · have feed : ('\n' == c) = false := beq_false_of_ne fun same => jsx rfl same.symm
          have left : ('\x7b' == c) = false := beq_false_of_ne fun same => opening rfl same.symm
          have right : ('\x7d' == c) = false := beq_false_of_ne fun same => closing rfl same.symm
          simp [breakEscape, ownMarks, feed, left, right]
  rw [textContent, Text.html, Text.escapeWith_escapeWith]
  exact congrArg (Text.escapeWith · s) (funext both)

/-! ## Reading -/

theorem fits_htmlEscape : entities.Fits Text.htmlEscape where
  filled := by decide
  apart := by decide
  each c := by
    unfold Text.htmlEscape
    split
    · exact .inl (by decide)
    · exact .inl (by decide)
    · exact .inl (by decide)
    · exact .inl (by decide)
    · rename_i other _ _ _
      have table : ∀ m ∈ entities, m.1.head? = some '&' := by decide
      refine .inr ⟨rfl, fun m member same => other ?_⟩
      rw [table m member] at same
      exact (Option.some.inj same).symm

theorem fits_textEscape (dialect : Dialect) : (textMarks dialect).Fits (textEscape dialect) where
  filled := by cases dialect <;> decide
  apart := by cases dialect <;> decide +kernel
  each c := by
    unfold textEscape
    split
    · exact .inl (by decide)
    · exact .inl (by decide)
    · exact .inl (by decide)
    · exact .inl (by decide)
    · rename_i opening _
      rcases fits_htmlEscape.each c with member | ⟨plain, begins⟩
      · exact .inl (List.mem_append_right _ member)
      · -- What is left alone is no bracket, and in JSX no brace.
        have bracket : c ≠ '<' := by
          rintro rfl
          exact absurd plain (by decide)
        have table : ∀ m ∈ ownMarks dialect,
            m.1.head? = some '<' ∨ dialect = .jsx ∧ m.1.head? = some '\x7b' := by
          cases dialect <;> decide
        refine .inr ⟨plain, List.forall_mem_append.mpr ⟨fun m member same => ?_, begins⟩⟩
        rcases table m member with first | ⟨jsx, first⟩
        · exact bracket (Option.some.inj (same.symm.trans first))
        · exact opening jsx (Option.some.inj (same.symm.trans first))

/-! ## Places of brackets and braces -/

theorem onlyIn_lineBreak (dialect : Dialect) (s : String) :
    OnlyIn [lineBreak dialect] '<' (textContent dialect s) := by
  refine Text.onlyIn_escapeWith (fun d inside => ?_) s
  unfold textEscape at inside ⊢
  split at inside
  · decide
  · decide
  · revert inside
    decide
  · revert inside
    decide
  · exact absurd inside (Text.not_mem_htmlEscape (by decide) d)

theorem onlyIn_braceGroups {brace : Char} (isBrace : brace ∈ ['\x7b', '\x7d']) (s : String) :
    OnlyIn braceGroups brace (textContent .jsx s) := by
  simp only [List.mem_cons, List.not_mem_nil, or_false] at isBrace
  refine Text.onlyIn_escapeWith (fun d inside => ?_) s
  unfold textEscape at inside ⊢
  split at inside
  · rename_i never
    cases never
  · rcases isBrace with rfl | rfl <;> simp_all
  · exact List.mem_cons_self
  · exact List.mem_cons_of_mem _ List.mem_cons_self
  · -- Entities have no braces, and a brace that stays would have been put into its group.
    unfold Text.htmlEscape at inside
    rcases isBrace with rfl | rfl
    all_goals split at inside <;> simp_all [eq_comm]

/-- Every text is read back from what stands for it in an element, and every name of a layer from
its attribute.  In between, a bracket opens nothing but a break, and a brace is nowhere but in its
group. -/
theorem contents_read (t : String) :
    (OnlyIn ["<br/>"] '<' (textContent .html t) ∧
        (textMarks .html).read (textContent .html t) = t) ∧
      (OnlyIn ["<br />"] '<' (textContent .jsx t) ∧
        (∀ brace ∈ ['\x7b', '\x7d'],
          OnlyIn ["\x7b'\x7b'\x7d", "\x7b'\x7d'\x7d"] brace (textContent .jsx t)) ∧
        (textMarks .jsx).read (textContent .jsx t) = t) ∧
      (∀ c ∈ ['<', '>', '"'], c ∉ (Text.html t).toList) ∧
      entities.read (Text.html t) = t ∧
      entities.read (readValue ((Attribute.layer t).text .html)) = t := by
  have named : readValue ((Attribute.layer t).text .html) = Text.html t :=
    (readValue_text_iff (.layer t)).mpr (Text.not_mem_html (by decide) t)
  have escaped : entities.read (Text.html t) = t := fits_htmlEscape.read_escapeWith t
  refine ⟨⟨onlyIn_lineBreak .html t, ?_⟩, ⟨onlyIn_lineBreak .jsx t, ?_, ?_⟩, ?_, escaped, ?_⟩
  · exact (fits_textEscape .html).read_escapeWith t
  · exact fun brace isBrace => onlyIn_braceGroups isBrace t
  · exact (fits_textEscape .jsx).read_escapeWith t
  · exact fun c ends => Text.not_mem_html ends t
  · rw [named, escaped]

end Handoff.Markup
