import Handoff.Text.Escape
import Handoff.Text.Hexadecimal
import Mathlib.Data.Bool.AllAny

/-!
Texts in quotes, as languages read them.

A literal goes from its opening quote to the next quote that has no backslash before it.  What
else a language makes of the characters in between is a `Quoting`: where an expression begins,
where the line ends and the literal with it, and what stands behind a backslash.  `Quoting.scan`
reads a literal behind its opening quote.

A writer puts backslashes before some characters (`Quoting.Writes`).  If every character is written
so that it is understood, the literal is read as it was meant whatever follows (`scan_flatMap`), and
it is exactly then that it is (`scan_eq_closed_iff`): a character that needs a backslash takes two
characters to write, so a reader who has found them all has found none without one
(`length_add_countP_le`).
-/

namespace Handoff.Text

/-! ## Escapes -/

/-- What a backslash makes of the characters behind it. -/
inductive Escape where
  /-- A character or nothing, for the first of them and so many further ones. -/
  | means (value : Option Char) (further : Nat)
  /-- The beginning of an expression. -/
  | expression
  /-- Nothing that the language knows. -/
  | unknown
deriving DecidableEq, Repr

/-- The number that hexadecimal digits write. -/
def hexNumber? (digits : List Char) : Option Nat :=
  digits.foldlM (fun n d => (hexValue? d).map (n * 16 + ·)) 0

/-- The number in `width` digits, and how many characters it takes. -/
def fixedCode? (width : Nat) (cs : List Char) : Option (Nat × Nat) :=
  if width ≤ cs.length then (hexNumber? (cs.take width)).map (·, width) else none

/-- The number in braces, of at most `most` digits, and how many characters it takes. -/
def bracedCode? (most : Nat) : List Char → Option (Nat × Nat)
  | '\x7b' :: cs =>
    let digits := cs.takeWhile (· != '\x7d')
    if digits = [] ∨ most < digits.length ∨ digits.length = cs.length then none
    else (hexNumber? digits).map (·, digits.length + 2)
  | _ => none

/-- The character of a number. -/
def Escape.ofCode (code further : Nat) : Escape :=
  if code.isValidChar then means (some (Char.ofNat code)) further else unknown

/-- The character of an escape by number, behind its letter.  Two such escapes of the halves of a
surrogate pair are one character; half of a pair alone is none. -/
def Escape.unicode (code? : List Char → Option (Nat × Nat)) (cs : List Char) : Escape :=
  match code? cs with
  | none => unknown
  | some (code, length) =>
    if 0xD800 ≤ code ∧ code ≤ 0xDBFF then
      match cs.drop length with
      | '\\' :: 'u' :: more =>
        match code? more with
        | some (low, further) =>
          if 0xDC00 ≤ low ∧ low ≤ 0xDFFF then
            ofCode (0x10000 + (code - 0xD800) * 0x400 + (low - 0xDC00)) (length + 2 + further)
          else unknown
        | none => unknown
      | _ => unknown
    else ofCode code length

/-- The characters that are written with a letter behind a backslash. -/
def controls : List (Char × Char) :=
  [('b', '\x08'), ('t', '\t'), ('n', '\n'), ('v', '\x0b'), ('f', '\x0c'), ('r', '\r')]

/-! ## Literals -/

/-- How a language reads what is in quotes. -/
structure Quoting where
  quote : Char
  /-- Characters with which an expression begins. -/
  opens : List Char
  /-- Characters past which no literal goes. -/
  ends : List Char
  /-- What is behind a backslash. -/
  escape : List Char → Escape
  quote_ne : quote ≠ '\\' := by decide

/-- Double quotes are the quotes of more than one language. -/
theorem doubleQuote_ne : '"' ≠ '\\' := by decide

/-- What is found behind an opening quote. -/
inductive Scan where
  /-- A text up to a closing quote, and what follows. -/
  | closed (value rest : List Char)
  /-- A text up to the beginning of an expression. -/
  | expression (value : List Char)
  /-- A text that goes on to the end without a quote. -/
  | unclosed (value : List Char)
  /-- A text up to something that is in no literal. -/
  | broken (value : List Char)
deriving DecidableEq, Repr

/-- What is found with more text in front. -/
def Scan.after (front : List Char) : Scan → Scan
  | closed value rest => closed (front ++ value) rest
  | expression value => expression (front ++ value)
  | unclosed value => unclosed (front ++ value)
  | broken value => broken (front ++ value)

@[simp] theorem Scan.after_nil (s : Scan) : s.after [] = s := by
  cases s <;> rfl

theorem Scan.after_after (first second : List Char) (s : Scan) :
    (s.after second).after first = s.after (first ++ second) := by
  cases s <;> simp only [after, List.append_assoc]

theorem Scan.after_eq_closed {front value rest : List Char} {s : Scan}
    (closes : s.after front = closed value rest) :
    ∃ own, s = closed own rest ∧ value = front ++ own := by
  cases s with
  | closed own behind =>
      cases closes
      exact ⟨own, rfl, rfl⟩
  | expression | unclosed | broken => cases closes

namespace Quoting

/-- Reads a literal behind its opening quote; the first `skip` characters are of an escape that
was read before. -/
def scan (q : Quoting) (skip : Nat) : List Char → Scan
  | [] => .unclosed []
  | c :: cs =>
    match skip with
    | skip + 1 => q.scan skip cs
    | 0 =>
      if c = '\\' then
        match q.escape cs with
        | .means value further => (q.scan (further + 1) cs).after value.toList
        | .expression => .expression []
        | .unknown => .broken []
      else if c = q.quote then .closed [] cs
      else if c ∈ q.opens then .expression []
      else if c ∈ q.ends then .broken []
      else (q.scan 0 cs).after [c]

/-- Reads a literal from its opening quote on. -/
def read (q : Quoting) : List Char → Scan
  | [] => .unclosed []
  | c :: cs => if c = q.quote then q.scan 0 cs else .broken []

/-- The characters that are not themselves unless there is a backslash before them. -/
def special (q : Quoting) : List Char := '\\' :: q.quote :: (q.opens ++ q.ends)

/-- A reader who does not mind the ends of lines. -/
def acrossLines (q : Quoting) : Quoting := { q with ends := [] }

variable {q : Quoting} {escape : Char → List Char} {c : Char} {s value rest : List Char}

theorem mem_special :
    c ∈ q.special ↔ c = '\\' ∨ c = q.quote ∨ c ∈ q.opens ∨ c ∈ q.ends := by
  rw [special, List.mem_cons, List.mem_cons, List.mem_append]

theorem scan_plain (plain : c ∉ q.special) (cs : List Char) :
    q.scan 0 (c :: cs) = (q.scan 0 cs).after [c] := by
  simp only [mem_special, not_or] at plain
  obtain ⟨backslash, quote, opens, ends⟩ := plain
  rw [scan, if_neg backslash, if_neg quote, if_neg opens, if_neg ends]

theorem scan_quote (rest : List Char) : q.scan 0 (q.quote :: rest) = .closed [] rest := by
  rw [scan, if_neg q.quote_ne, if_pos rfl]

theorem read_quote (cs : List Char) : q.read (q.quote :: cs) = q.scan 0 cs :=
  if_pos rfl

theorem scan_escape {d : Char} (cs : List Char)
    (means : q.escape (d :: cs) = .means (some c) 0) :
    q.scan 0 ('\\' :: d :: cs) = (q.scan 0 cs).after [c] := by
  rw [scan, if_pos rfl, means]
  rfl

/-! ## Writing -/

/-- A character is written with a backslash so that it is understood whatever follows. -/
def Escapes (q : Quoting) (escape : Char → List Char) (c : Char) : Prop :=
  ∃ d, escape c = ['\\', d] ∧ ∀ cs, q.escape (d :: cs) = .means (some c) 0

/-- A character is understood: it is written with a backslash or does not need one. -/
def Understands (q : Quoting) (escape : Char → List Char) (c : Char) : Prop :=
  q.Escapes escape c ∨ escape c = [c] ∧ c ∉ q.special

/-- Characters that are understood are read as they are, and the reader is where he would be
without them. -/
theorem scan_flatMap (understood : ∀ c ∈ s, q.Understands escape c) (rest : List Char) :
    q.scan 0 (s.flatMap escape ++ rest) = (q.scan 0 rest).after s := by
  induction s with
  | nil => exact (Scan.after_nil _).symm
  | cons c s ih =>
      obtain ⟨own, others⟩ := List.forall_mem_cons.mp understood
      have one : q.scan 0 (escape c ++ (s.flatMap escape ++ rest)) =
          (q.scan 0 (s.flatMap escape ++ rest)).after [c] := by
        rcases own with ⟨d, written, means⟩ | ⟨written, plain⟩
        · rw [written]
          exact scan_escape _ (means _)
        · rw [written]
          exact scan_plain plain _
      rw [List.flatMap_cons, List.append_assoc, one, ih others, Scan.after_after]
      rfl

/-- Characters that are understood do not end the literal. -/
theorem scan_flatMap_eq_unclosed (understood : ∀ c ∈ s, q.Understands escape c) :
    q.scan 0 (s.flatMap escape) = .unclosed s := by
  have read := scan_flatMap understood []
  rw [List.append_nil] at read
  rw [read, scan, Scan.after, List.append_nil]

theorem scan_flatMap_eq_closed (understood : ∀ c ∈ s, q.Understands escape c)
    (rest : List Char) : q.scan 0 (s.flatMap escape ++ q.quote :: rest) = .closed s rest := by
  rw [scan_flatMap understood, scan_quote, Scan.after, List.append_nil]

/-! ## What reading takes -/

/-- The ways in which a literal can begin that has an end: with an escape, with its closing quote,
or with a character that is itself. -/
theorem scan_cons_eq_closed {cs : List Char} (closes : q.scan 0 (c :: cs) = .closed value rest) :
    (∃ (meant : Option Char) (further : Nat) (own : List Char),
        q.scan (further + 1) cs = .closed own rest ∧ value = meant.toList ++ own) ∨
      value = [] ∧ rest = cs ∨
      c ∉ q.special ∧ ∃ own, q.scan 0 cs = .closed own rest ∧ value = c :: own := by
  rw [scan] at closes
  split at closes
  · split at closes
    · rename_i meant further _
      obtain ⟨own, closed, rfl⟩ := Scan.after_eq_closed closes
      exact .inl ⟨meant, further, own, closed, rfl⟩
    · cases closes
    · cases closes
  · rename_i backslash
    split at closes
    · cases closes
      exact .inr (.inl ⟨rfl, rfl⟩)
    · rename_i quote
      split at closes
      · cases closes
      · rename_i opens
        split at closes
        · cases closes
        · rename_i ends
          obtain ⟨own, closed, rfl⟩ := Scan.after_eq_closed closes
          refine .inr (.inr ⟨?_, own, closed, rfl⟩)
          rw [mem_special]
          exact not_or.mpr ⟨backslash, not_or.mpr ⟨quote, not_or.mpr ⟨opens, ends⟩⟩⟩

/-- A literal is no shorter than its value, and every special character of the value takes a
character more. -/
theorem length_add_countP_le {skip : Nat} {cs : List Char}
    (closes : q.scan skip cs = .closed value rest) :
    value.length + value.countP (· ∈ q.special) + 1 + rest.length ≤ cs.length - skip := by
  induction cs generalizing skip value with
  | nil => cases closes
  | cons c cs ih =>
      rw [List.length_cons]
      cases skip with
      | succ skip =>
          rw [scan] at closes
          have behind := ih closes
          omega
      | zero =>
          rcases scan_cons_eq_closed closes with ⟨meant, further, own, closed, rfl⟩ | ⟨rfl, rfl⟩ |
            ⟨plain, own, closed, rfl⟩
          · -- The backslash and the character behind it make up for a special character.
            have behind := ih closed
            have single : meant.toList.length ≤ 1 := by cases meant <;> simp
            have most := List.countP_le_length (p := fun d => decide (d ∈ q.special))
              (l := meant.toList)
            rw [List.length_append, List.countP_append]
            omega
          · rw [List.countP_nil, List.length_nil]
            omega
          · have behind := ih closed
            rw [List.length_cons, List.countP_cons_of_neg (by simpa using plain)]
            omega

/-- If of two properties one implies the other and as many have it, those with the other have the
one. -/
theorem of_countP_le {α : Type} {narrow wide : α → Bool} {items : List α}
    (implies : ∀ a, narrow a = true → wide a = true)
    (counts : items.countP wide ≤ items.countP narrow) :
    ∀ a ∈ items, wide a = true → narrow a = true := by
  induction items with
  | nil => exact fun a member => nomatch member
  | cons b rest ih =>
      have fewer := List.countP_mono_left (l := rest) fun a _ => implies a
      rw [List.countP_cons, List.countP_cons] at counts
      have own : wide b = true → narrow b = true := by
        intro is
        refine Decidable.byContradiction fun isNot => ?_
        rw [if_pos is, if_neg isNot] at counts
        omega
      refine List.forall_mem_cons.mpr ⟨own, ih ?_⟩
      by_cases is : wide b = true
      · rw [if_pos is, if_pos (own is)] at counts
        omega
      · have isNot : ¬ narrow b = true := fun narrow => is (implies b narrow)
        rw [if_neg is, if_neg isNot] at counts
        omega

/-- A writer that leaves characters as they are or gives special ones their backslash. -/
def Writes (q : Quoting) (escape : Char → List Char) : Prop :=
  ∀ c, escape c = [c] ∨ c ∈ q.special ∧ q.Escapes escape c

theorem Writes.understands (writes : q.Writes escape) (given : c ∈ q.special → escape c ≠ [c]) :
    q.Understands escape c := by
  rcases writes c with plain | ⟨-, escaped⟩
  · exact .inr ⟨plain, fun needs => given needs plain⟩
  · exact .inl escaped

/-- Past the ends of lines everything is understood that is if the quote, the backslash and the
beginnings of expressions have their backslashes. -/
theorem Writes.understands_acrossLines (writes : q.Writes escape)
    (given : ∀ c ∈ q.acrossLines.special, escape c ≠ [c]) (c : Char) :
    q.acrossLines.Understands escape c := by
  rcases writes c with plain | ⟨-, escaped⟩
  · exact .inr ⟨plain, fun needs => given c needs plain⟩
  · exact .inl escaped

/-- What is written is longer by one for each character with a backslash. -/
theorem Writes.length_flatMap (writes : q.Writes escape) (s : List Char) :
    (s.flatMap escape).length = s.length + s.countP (fun c => escape c ≠ [c]) := by
  induction s with
  | nil => rfl
  | cons c s ih =>
      rw [List.flatMap_cons, List.length_append, ih, List.countP_cons, List.length_cons]
      rcases writes c with plain | ⟨-, d, escaped, -⟩
      · simp only [plain, List.length_singleton, ne_eq, not_true_eq_false, decide_false,
          Bool.false_eq_true, if_false]
        omega
      · simp only [escaped, List.length_cons, List.length_nil, ne_eq, List.cons.injEq,
          reduceCtorEq, and_false, not_false_eq_true, decide_true, if_true]
        omega

/-- A literal is read as it was meant exactly if every special character in it has got its
backslash. -/
theorem Writes.scan_eq_closed_iff (writes : q.Writes escape) :
    q.scan 0 (s.flatMap escape ++ q.quote :: rest) = .closed s rest ↔
      ∀ c ∈ s, c ∈ q.special → escape c ≠ [c] := by
  constructor
  · intro closes c member needs
    have taken := length_add_countP_le closes
    rw [List.length_append, writes.length_flatMap, List.length_cons] at taken
    have implies : ∀ c, decide (escape c ≠ [c]) = true → decide (c ∈ q.special) = true := by
      intro c other
      have escaped := (writes c).resolve_left (of_decide_eq_true other)
      exact decide_eq_true escaped.1
    have counts : s.countP (fun c => decide (c ∈ q.special)) ≤
        s.countP fun c => decide (escape c ≠ [c]) := by
      omega
    exact of_decide_eq_true (of_countP_le implies counts c member (decide_eq_true needs))
  · intro given
    exact scan_flatMap_eq_closed (fun c member => writes.understands (given c member)) rest

/-- If a single special character goes without a backslash, it is that which must not be there. -/
theorem forall_escaped_iff {bare : Char} (only : ∀ c ∈ q.special, escape c = [c] ↔ c = bare)
    (special : bare ∈ q.special) :
    (∀ c ∈ s, c ∈ q.special → escape c ≠ [c]) ↔ bare ∉ s := by
  constructor
  · exact fun given member => given bare member special ((only bare special).mpr rfl)
  · intro absent c member needs plain
    exact absent ((only c needs).mp plain ▸ member)

end Quoting

end Handoff.Text
