import Handoff.Naming
import Handoff.Proofs.Text.Alphabet
import Handoff.Proofs.Text.Quoting
import Mathlib.Data.List.Basic

/-!
The words of a code.

Texts are in a code as literals and as comments that go to the end of their line.
`Lexis.wordsFrom` reads a code for them: it takes a literal as the quoting of the language says,
a comment up to the next line feed or carriage return, and passes over everything else.

`Lexis.Spells code words` says how a code is put together: from characters that begin neither a
literal nor a comment, from literals as they are written for a text, and from comments of one line.
Literals of addresses are not counted among the words.  Whatever the texts are, a code that spells
words has them all found by the reader exactly if there is no carriage return in any of them
(`Spells.finds_iff`): a line feed is never in a literal, but a carriage return is, and it breaks the
literal or ends the comment there.
-/

namespace Handoff.Text

/-! ## Reading -/

/-- What a code has of a text. -/
inductive Word where
  /-- The value of a literal. -/
  | literal (text : String)
  /-- All that stands behind the mark of a comment. -/
  | comment (text : String)
deriving DecidableEq, Repr

namespace Word

/-- The text of a word. -/
def text : Word → String
  | literal text | comment text => text

/-- A literal that has only characters of addresses. -/
def IsAddress (w : Word) : Prop := ∃ url, w = literal url ∧ Within isDenseChar url

end Word

/-- There is no carriage return in any of the words. -/
def Unbroken (words : List Word) : Prop := ∀ w ∈ words, '\r' ∉ w.text.toList

/-- There is no carriage return in any of the comments among the words. -/
def UnbrokenComments (words : List Word) : Prop :=
  ∀ text, .comment text ∈ words → '\r' ∉ text.toList

theorem Unbroken.comments {words : List Word} (whole : Unbroken words) : UnbrokenComments words :=
  fun _ member => whole _ member

theorem unbrokenComments_append {first later : List Word} :
    UnbrokenComments (first ++ later) ↔ UnbrokenComments first ∧ UnbrokenComments later := by
  refine ⟨fun whole => ⟨fun text member => whole text (List.mem_append_left _ member),
    fun text member => whole text (List.mem_append_right _ member)⟩, fun both text member => ?_⟩
  exact (List.mem_append.mp member).elim (both.1 text) (both.2 text)

instance (words : List Word) : Decidable (Unbroken words) :=
  inferInstanceAs (Decidable (∀ w ∈ words, '\r' ∉ w.text.toList))

@[simp] theorem unbroken_literal {s : String} : Unbroken [.literal s] ↔ '\r' ∉ s.toList :=
  List.forall_mem_singleton

@[simp] theorem unbroken_comment {s : String} : Unbroken [.comment s] ↔ '\r' ∉ s.toList :=
  List.forall_mem_singleton

theorem unbroken_perm {first later : List Word} (perm : first.Perm later) :
    Unbroken first ↔ Unbroken later :=
  ⟨fun whole w member => whole w (perm.mem_iff.mpr member),
    fun whole w member => whole w (perm.mem_iff.mp member)⟩

@[simp] theorem unbroken_append {first later : List Word} :
    Unbroken (first ++ later) ↔ Unbroken first ∧ Unbroken later :=
  List.forall_mem_append

/-- Whether a character ends a line. -/
def endsLine (c : Char) : Bool := c == '\n' || c == '\r'

/-- Whether a character may stand in code beside literals and comments. -/
def isCodeChar (c : Char) : Bool :=
  isWordChar c ||
    [' ', '\n', ',', ':', ';', '(', ')', '[', ']', '\x7b', '\x7d', '_', '=', '@', '#',
      '>'].contains c

theorem eq_or_eq_of_endsLine {c : Char} (ends : endsLine c = true) : c = '\n' ∨ c = '\r' := by
  simpa [endsLine] using ends

theorem ends_dartEscape (c d : Char) (ends : endsLine d = true) :
    d ∈ dartEscape c ↔ d = c ∧ d = '\r' := by
  rcases eq_or_eq_of_endsLine ends with rfl | rfl <;> unfold dartEscape <;> split
  any_goals decide
  · rename_i feed
    rw [List.mem_singleton]
    exact iff_of_false (fun same => feed same.symm) fun both => absurd both.2 (by decide)
  · rw [List.mem_singleton, and_iff_left rfl]

theorem ends_swiftEscape (c d : Char) (ends : endsLine d = true) :
    d ∈ swiftEscape c ↔ d = c ∧ d = '\r' := by
  rcases eq_or_eq_of_endsLine ends with rfl | rfl <;> unfold swiftEscape <;> split
  any_goals decide
  · rename_i feed
    rw [List.mem_singleton]
    exact iff_of_false (fun same => feed same.symm) fun both => absurd both.2 (by decide)
  · rw [List.mem_singleton, and_iff_left rfl]

theorem within_chars {allowed : Char → Bool} {cs : List Char} (all : cs.all allowed = true) :
    Within allowed (String.ofList cs) :=
  within_ofList.mpr (List.all_eq_true.mp all)

theorem Within.code {s : String} (within : Within isWordChar s) : Within isCodeChar s :=
  within.mono fun c word => by rw [isCodeChar, word, Bool.true_or]

theorem within_of_isPlain {s : String} (plain : ∀ c ∈ s.toList, Naming.isPlain c = true) :
    Within isCodeChar s := by
  refine Within.code fun c member => ?_
  have alphanumeric : c.isAlphanum = true := plain c member
  rw [isWordChar, alphanumeric]
  rfl

theorem within_spaces (width : Nat) : Within isCodeChar (spaces width) := by
  refine within_ofList.mpr fun c member => ?_
  rw [List.eq_of_mem_replicate member]
  decide

/-- A language that has literals, and comments from two slashes to the end of the line. -/
structure Lexis where
  quoting : Quoting
  /-- How a character is written in a literal. -/
  escape : Char → List Char
  writes : quoting.Writes escape
  /-- Of the characters that need a backslash only the carriage return gets none. -/
  bare : ∀ c ∈ quoting.special, escape c = [c] ↔ c = '\r'
  breaks : '\r' ∈ quoting.ends ∧ '\r' ≠ quoting.quote := by decide
  ends : ∀ c d, endsLine d = true → (d ∈ escape c ↔ d = c ∧ d = '\r')
  /-- A quote is not of the code around, and in addresses there is nothing special. -/
  quote : isCodeChar quoting.quote = false := by decide
  solid : isBlank quoting.quote = false := by decide
  dense : ∀ c ∈ quoting.special, isDenseChar c = false

namespace Lexis

variable {l : Lexis} {s : String} {cs body rest : List Char} {words more : List Word}

/-- The literal of a text. -/
def literal (l : Lexis) (text : String) : String :=
  String.ofList (l.quoting.quote :: (text.toList.flatMap l.escape ++ [l.quoting.quote]))

/-- The comment of a text, with the line feed at its end. -/
def comment (text : String) : String := "//" ++ text ++ "\n"

/-- A word as it is written; a comment is without the line feed at its end. -/
def written (l : Lexis) : Word → String
  | .literal text => l.literal text
  | .comment text => "//" ++ text

/-- The literals and comments of a code from left to right, if every literal has an end; the first
`skip` characters were read before. -/
def wordsFrom (l : Lexis) (skip : Nat) : List Char → Option (List Word)
  | [] => some []
  | c :: cs =>
    match skip with
    | skip + 1 => l.wordsFrom skip cs
    | 0 =>
      if c = l.quoting.quote then
        match l.quoting.scan 0 cs with
        | .closed value rest =>
          (l.wordsFrom (cs.length - rest.length) cs).map (.literal (String.ofList value) :: ·)
        | _ => none
      else if c = '/' ∧ cs.head? = some '/' then
        let text := (cs.drop 1).takeWhile (!endsLine ·)
        (l.wordsFrom (text.length + 1) cs).map (.comment (String.ofList text) :: ·)
      else l.wordsFrom 0 cs

/-- A reader finds the given words in a code, and besides them only addresses. -/
def Finds (l : Lexis) (code : String) (words : List Word) : Prop :=
  ∃ found addresses, l.wordsFrom 0 code.toList = some found ∧ found.Perm (words ++ addresses) ∧
    ∀ w ∈ addresses, w.IsAddress

theorem finds_perm {code : String} (perm : words.Perm more) :
    l.Finds code words ↔ l.Finds code more := by
  constructor
  · rintro ⟨found, addresses, read, same, own⟩
    exact ⟨found, addresses, read, same.trans (perm.append_right addresses), own⟩
  · rintro ⟨found, addresses, read, same, own⟩
    exact ⟨found, addresses, read, same.trans (perm.symm.append_right addresses), own⟩

theorem wordsFrom_skip (front rest : List Char) :
    l.wordsFrom front.length (front ++ rest) = l.wordsFrom 0 rest := by
  induction front with
  | nil => rfl
  | cons c front ih => exact ih

theorem wordsFrom_code (code : ∀ c ∈ cs, isCodeChar c = true) (rest : List Char) :
    l.wordsFrom 0 (cs ++ rest) = l.wordsFrom 0 rest := by
  induction cs with
  | nil => rfl
  | cons c cs ih =>
      obtain ⟨own, others⟩ := List.forall_mem_cons.mp code
      have quote : c ≠ l.quoting.quote := by
        rintro rfl
        exact Bool.false_ne_true (l.quote.symm.trans own)
      have slash : c ≠ '/' := by
        rintro rfl
        exact absurd own (by decide)
      rw [List.cons_append, wordsFrom, if_neg quote, if_neg fun both => slash both.1, ih others]

theorem wordsFrom_literal {value : List Char}
    (closes : l.quoting.scan 0 (body ++ l.quoting.quote :: rest) = .closed value rest) :
    l.wordsFrom 0 (l.quoting.quote :: (body ++ l.quoting.quote :: rest)) =
      (l.wordsFrom 0 rest).map (.literal (String.ofList value) :: ·) := by
  have taken : (body ++ l.quoting.quote :: rest).length - rest.length =
      (body ++ [l.quoting.quote]).length := by
    simp only [List.length_append, List.length_cons, List.length_nil]
    omega
  have split : body ++ l.quoting.quote :: rest = (body ++ [l.quoting.quote]) ++ rest := by
    rw [List.append_assoc, List.singleton_append]
  rw [wordsFrom, if_pos rfl, closes]
  dsimp only
  rw [taken, split, wordsFrom_skip]

theorem wordsFrom_open (opens : ∀ value after, l.quoting.scan 0 cs ≠ .closed value after) :
    l.wordsFrom 0 (l.quoting.quote :: cs) = none := by
  rw [wordsFrom, if_pos rfl]
  split
  · rename_i value after closed
    exact absurd closed (opens value after)
  · rfl

theorem wordsFrom_comment (line : ∀ c ∈ body, endsLine c = false) (rest : List Char) :
    l.wordsFrom 0 ('/' :: '/' :: (body ++ '\n' :: rest)) =
      (l.wordsFrom 0 rest).map (.comment (String.ofList body) :: ·) := by
  have slash : '/' ≠ l.quoting.quote := by
    intro same
    have special : l.quoting.quote ∈ l.quoting.special := Quoting.mem_special.mpr (.inr (.inl rfl))
    exact absurd (l.dense _ special) (by rw [← same]; decide)
  have text : ((('/' :: (body ++ '\n' :: rest)).drop 1).takeWhile (!endsLine ·)) = body := by
    rw [List.drop_one, List.tail_cons, List.takeWhile_append_of_pos fun c member => by
      rw [line c member]; rfl]
    exact (congrArg (body ++ ·) (List.takeWhile_cons_of_neg (by decide))).trans
      (List.append_nil body)
  have feed : ∀ c ∈ ['\n'], isCodeChar c = true := List.forall_mem_singleton.mpr rfl
  have behind : l.wordsFrom (body.length + 1) ('/' :: (body ++ '\n' :: rest)) =
      l.wordsFrom 0 rest :=
    (wordsFrom_skip ('/' :: body) ('\n' :: rest)).trans
      (wordsFrom_code feed rest)
  rw [wordsFrom, if_neg slash, if_pos ⟨rfl, rfl⟩]
  dsimp only
  rw [text, behind]

/-- What is read as a comment ends at a carriage return. -/
theorem unbrokenComments_of_wordsFrom {skip : Nat} (found : l.wordsFrom skip cs = some words) :
    UnbrokenComments words := by
  induction cs generalizing skip words with
  | nil =>
      cases found
      exact fun text member => nomatch member
  | cons c cs ih =>
      cases skip with
      | succ skip => exact ih found
      | zero =>
          rw [wordsFrom] at found
          split at found
          · split at found
            · obtain ⟨others, later, rfl⟩ := Option.map_eq_some_iff.mp found
              intro text member
              exact ih later text ((List.mem_cons.mp member).resolve_left (nomatch ·))
            · cases found
          · split at found
            · obtain ⟨others, later, rfl⟩ := Option.map_eq_some_iff.mp found
              intro text member
              rcases List.mem_cons.mp member with same | inside
              · cases same
                rw [String.toList_ofList]
                intro ends
                exact absurd (List.all_eq_true.mp List.all_takeWhile _ ends) (by decide)
              · exact ih later text inside
            · exact ih found

/-! ## Writing -/

/-- A code is put together so that it has the given words. -/
inductive Spells (l : Lexis) : String → List Word → Prop
  | nil : Spells l "" []
  | char {c : Char} (code : isCodeChar c = true) : Spells l (String.singleton c) []
  | address {s : String} (dense : Within isDenseChar s) : Spells l (l.literal s) []
  | literal (s : String) : Spells l (l.literal s) [.literal s]
  | comment {s : String} (line : OneLine s) : Spells l (comment s) [.comment s]
  | append {a b : String} {first later : List Word} (front : Spells l a first)
      (back : Spells l b later) : Spells l (a ++ b) (first ++ later)

theorem toList_literal (text : String) :
    (l.literal text).toList =
      l.quoting.quote :: (text.toList.flatMap l.escape ++ [l.quoting.quote]) :=
  String.toList_ofList

theorem quote_ne_of_endsLine {d : Char} (ends : endsLine d = true) : d ≠ l.quoting.quote := by
  rcases eq_or_eq_of_endsLine ends with rfl | rfl
  · intro same
    exact absurd l.quote (by rw [← same]; decide)
  · exact l.breaks.2

/-- Of the ends of lines in a text a literal keeps the carriage returns. -/
theorem mem_literal_of_endsLine {d : Char} (ends : endsLine d = true) (text : String) :
    d ∈ (l.literal text).toList ↔ d ∈ text.toList ∧ d = '\r' := by
  have quote := quote_ne_of_endsLine (l := l) ends
  simp only [toList_literal, List.mem_cons, List.mem_append, List.mem_flatMap, List.not_mem_nil,
    or_false, quote, false_or, l.ends _ _ ends]
  exact ⟨fun ⟨c, member, same, back⟩ => ⟨same ▸ member, back⟩,
    fun ⟨member, back⟩ => ⟨d, member, rfl, back⟩⟩

/-- A word as it is written has of the ends of lines the carriage returns of its text. -/
theorem mem_written_of_endsLine {d : Char} (ends : endsLine d = true) {w : Word}
    (line : ∀ text, w = .comment text → OneLine text) :
    d ∈ (l.written w).toList ↔ d ∈ w.text.toList ∧ d = '\r' := by
  cases w with
  | literal text => exact mem_literal_of_endsLine ends text
  | comment text =>
      have whole := line text rfl
      rw [written, String.toList_append, List.mem_append, Word.text]
      rcases eq_or_eq_of_endsLine ends with rfl | rfl
      · exact iff_of_false (fun feed => feed.elim (by decide) whole) fun both => whole both.1
      · rw [and_iff_left rfl, or_iff_right (by decide)]

theorem toList_comment (text : String) :
    (comment text).toList = '/' :: '/' :: (text.toList ++ ['\n']) := by
  rw [comment, String.toList_append, String.toList_append]
  rfl

theorem literal_append (text : String) (rest : List Char) :
    (l.literal text).toList ++ rest =
      l.quoting.quote :: (text.toList.flatMap l.escape ++ l.quoting.quote :: rest) := by
  rw [toList_literal, List.cons_append, List.append_assoc, List.singleton_append]

theorem understands_of_ne {c : Char} (other : c ≠ '\r') : l.quoting.Understands l.escape c :=
  l.writes.understands fun special plain => other ((l.bare c special).mp plain)

/-- A literal without a carriage return is read as its text. -/
theorem wordsFrom_literal_append {text : String} (whole : '\r' ∉ text.toList)
    (rest : List Char) :
    l.wordsFrom 0 ((l.literal text).toList ++ rest) =
      (l.wordsFrom 0 rest).map (.literal text :: ·) := by
  have understood : ∀ c ∈ text.toList, l.quoting.Understands l.escape c :=
    fun c member => understands_of_ne fun same => whole (same ▸ member)
  have closes := Quoting.scan_flatMap_eq_closed understood rest
  rw [literal_append, wordsFrom_literal closes, String.ofList_toList]

theorem special_return : '\r' ∈ l.quoting.special :=
  Quoting.mem_special.mpr (.inr (.inr (.inr l.breaks.1)))

/-- A literal with a carriage return has no end. -/
theorem wordsFrom_broken {text : String} (broken : '\r' ∈ text.toList) (rest : List Char) :
    l.wordsFrom 0 ((l.literal text).toList ++ rest) = none := by
  obtain ⟨before, after, split, clean⟩ := List.eq_append_cons_of_mem broken
  have understood : ∀ c ∈ before, l.quoting.Understands l.escape c :=
    fun c member => understands_of_ne fun same => clean (same ▸ member)
  have bare : l.escape '\r' = ['\r'] := (l.bare _ special_return).mpr rfl
  rw [literal_append]
  refine wordsFrom_open fun value behind closed => ?_
  rw [split, List.flatMap_append, List.flatMap_cons, bare, List.append_assoc,
    Quoting.scan_flatMap understood] at closed
  obtain ⟨own, closes, -⟩ := Scan.after_eq_closed closed
  rw [List.append_assoc, List.singleton_append, Quoting.scan, if_neg (by decide),
    if_neg l.breaks.2] at closes
  split at closes
  · cases closes
  · rw [if_pos l.breaks.1] at closes
    cases closes

theorem wordsFrom_comment_append {text : String} (line : OneLine text)
    (whole : '\r' ∉ text.toList) (rest : List Char) :
    l.wordsFrom 0 ((comment text).toList ++ rest) =
      (l.wordsFrom 0 rest).map (.comment text :: ·) := by
  have inside : ∀ c ∈ text.toList, endsLine c = false := by
    intro c member
    have feed : c ≠ '\n' := fun same => line (same ▸ member)
    have back : c ≠ '\r' := fun same => whole (same ▸ member)
    simp [endsLine, feed, back]
  rw [toList_comment, List.cons_append, List.cons_append, List.append_assoc, List.singleton_append,
    wordsFrom_comment inside, String.ofList_toList]

theorem literal_eq_of_dense (dense : Within isDenseChar s) :
    l.literal s = String.singleton l.quoting.quote ++ s ++ String.singleton l.quoting.quote := by
  have each : ∀ c ∈ s.toList, l.escape c = [c] := by
    intro c member
    refine (l.writes c).resolve_right fun escaped => ?_
    exact Bool.false_ne_true ((l.dense c escaped.1).symm.trans (dense c member))
  have own : s.toList.flatMap l.escape = s.toList :=
    (List.flatMap_congr each).trans (List.flatMap_singleton' s.toList)
  rw [← String.toList_inj, toList_literal, own]
  simp

/-! ## Codes one after another -/

/-- Items have the given words, one item after another. -/
inductive InTurn {α : Type} (P : α → List Word → Prop) : List α → List Word → Prop
  | nil : InTurn P [] []
  | cons {a : α} {items : List α} {first later : List Word} (own : P a first)
      (others : InTurn P items later) : InTurn P (a :: items) (first ++ later)

/-- None of the items has a word. -/
def Plain {α : Type} (P : α → List Word → Prop) (items : List α) : Prop := ∀ a ∈ items, P a []

section

variable {α β : Type} {P : α → List Word → Prop} {items others : List α} {a : α}
  {words more : List Word}

@[simp] theorem plain_nil : Plain P [] :=
  List.forall_mem_nil _

@[simp] theorem plain_append : Plain P (items ++ others) ↔ Plain P items ∧ Plain P others :=
  List.forall_mem_append

theorem Plain.append (plain : Plain P items) (more : Plain P others) : Plain P (items ++ others) :=
  plain_append.mpr ⟨plain, more⟩

theorem plain_ite {c : Prop} [Decidable c] (plain : Plain P items) :
    Plain P (if c then items else []) := by
  split
  · exact plain
  · exact plain_nil

namespace InTurn

theorem append (first : InTurn P items words) (second : InTurn P others more) :
    InTurn P (items ++ others) (words ++ more) := by
  induction first with
  | nil => exact second
  | cons own _ ih =>
      rw [List.append_assoc]
      exact .cons own ih

theorem singleton (own : P a words) : InTurn P [a] words :=
  List.append_nil words ▸ .cons own .nil

theorem own (only : InTurn P [a] words) : P a words := by
  cases only with
  | cons own others =>
      cases others
      rwa [List.append_nil]

theorem flatMap {f : β → List Word} {g : β → α} {items : List β}
    (each : ∀ b ∈ items, P (g b) (f b)) : InTurn P (items.map g) (items.flatMap f) := by
  induction items with
  | nil => exact .nil
  | cons b rest ih =>
      obtain ⟨own, others⟩ := List.forall_mem_cons.mp each
      exact .cons own (ih others)

theorem map {Q : β → List Word → Prop} {f : α → β} (each : InTurn P items words)
    (imp : ∀ a own, P a own → Q (f a) own) : InTurn Q (items.map f) words := by
  induction each with
  | nil => exact .nil
  | cons own _ ih => exact .cons (imp _ _ own) ih

theorem zipWith {γ : Type} {Q : β → List Word → Prop} {f : γ → α → β} (each : InTurn P items words)
    {labels : List γ} (length : labels.length = items.length)
    (around : ∀ label ∈ labels, ∀ a own, P a own → Q (f label a) own) :
    InTurn Q (labels.zipWith f items) words := by
  induction each generalizing labels with
  | nil =>
      rw [List.zipWith_nil_right]
      exact .nil
  | @cons a rest first later own _ ih =>
      cases labels with
      | nil => cases length
      | cons label labels =>
          obtain ⟨here, after⟩ := List.forall_mem_cons.mp around
          exact .cons (here a first own) (ih (Nat.succ.inj length) after)

theorem none (plain : Plain P items) : InTurn P items [] := by
  induction items with
  | nil => exact .nil
  | cons a rest ih =>
      obtain ⟨own, others⟩ := List.forall_mem_cons.mp plain
      have inTurn := InTurn.cons own (ih others)
      exact inTurn

theorem before (each : InTurn P items words) (plain : Plain P others) :
    InTurn P (items ++ others) words :=
  List.append_nil words ▸ each.append (.none plain)

theorem after (plain : Plain P items) (each : InTurn P others words) :
    InTurn P (items ++ others) words :=
  InTurn.append (.none plain) each

end InTurn

end

namespace Spells

variable {a b : String}

theorem code (code : Within isCodeChar s) : l.Spells s [] := by
  have chars : ∀ cs : List Char, (∀ c ∈ cs, isCodeChar c = true) →
      l.Spells (String.ofList cs) [] := by
    intro cs
    induction cs with
    | nil => exact fun _ => .nil
    | cons c cs ih =>
        intro all
        obtain ⟨own, others⟩ := List.forall_mem_cons.mp all
        have split : String.ofList (c :: cs) = String.singleton c ++ String.ofList cs := by
          rw [← String.toList_inj]
          simp
        rw [split]
        exact .append (.char own) (ih others)
  exact String.ofList_toList (s := s) ▸ chars s.toList code

theorem after (code : Within isCodeChar a) (back : l.Spells b words) : l.Spells (a ++ b) words :=
  .append (Spells.code code) back

theorem before (front : l.Spells a words) (code : Within isCodeChar b) :
    l.Spells (a ++ b) words :=
  List.append_nil words ▸ .append front (Spells.code code)

/-- A comment as it is written behind a margin. -/
theorem margin {text : String} (margin : Within isCodeChar a) (line : OneLine text) :
    l.Spells (a ++ "// " ++ text ++ "\n") [.comment (" " ++ text)] := by
  have whole : OneLine (" " ++ text) := oneLine_append.mpr ⟨by decide, line⟩
  have mark : "// " = "//" ++ " " := by decide
  have split : a ++ "// " ++ text ++ "\n" = a ++ Lexis.comment (" " ++ text) := by
    rw [mark, Lexis.comment]
    simp only [String.append_assoc]
  rw [split]
  exact .after margin (.comment whole)

theorem join {texts : List String} (each : InTurn l.Spells texts words) :
    l.Spells (String.join texts) words := by
  induction each with
  | nil => exact .nil
  | cons own _ ih =>
      rw [String.join_cons]
      exact .append own ih

theorem intercalate {texts : List String} {separator : String}
    (code : Within isCodeChar separator) (each : InTurn l.Spells texts words) :
    l.Spells (separator.intercalate texts) words := by
  induction each with
  | nil =>
      rw [String.intercalate_nil]
      exact .nil
  | @cons text rest first later own others ih =>
      cases others with
      | nil =>
          rw [String.intercalate_singleton, List.append_nil]
          exact own
      | cons next others =>
          rw [String.intercalate_cons_cons, String.append_assoc]
          exact .append own (.after code ih)

end Spells

/-! ## What is found -/

namespace Spells

variable {l : Lexis} {s : String} {words : List Word}

/-- Words without a carriage return are read from a code that spells them, and the reader is then
where he would be without the code. -/
theorem reads (spells : l.Spells s words) (whole : Unbroken words) :
    ∃ found addresses, (∀ rest, l.wordsFrom 0 (s.toList ++ rest) =
        (l.wordsFrom 0 rest).map (found ++ ·)) ∧
      found.Perm (words ++ addresses) ∧ ∀ w ∈ addresses, w.IsAddress := by
  induction spells with
  | nil =>
      exact ⟨[], [], fun rest => (congrFun Option.map_id _).symm, .refl _, List.forall_mem_nil _⟩
  | @char c code =>
      refine ⟨[], [], fun rest => ?_, .refl _, List.forall_mem_nil _⟩
      have passed : l.wordsFrom 0 ([c] ++ rest) = l.wordsFrom 0 rest :=
        wordsFrom_code (List.forall_mem_singleton.mpr code) rest
      rw [String.toList_singleton, passed]
      exact (congrFun Option.map_id _).symm
  | @address url dense =>
      have clean : '\r' ∉ url.toList := dense.not_mem (by decide)
      exact ⟨[.literal url], [.literal url], wordsFrom_literal_append clean, .refl _,
        List.forall_mem_singleton.mpr ⟨url, rfl, dense⟩⟩
  | literal text =>
      have clean : '\r' ∉ text.toList := whole _ List.mem_cons_self
      exact ⟨[.literal text], [], wordsFrom_literal_append clean, .refl _, List.forall_mem_nil _⟩
  | @comment text line =>
      have clean : '\r' ∉ text.toList := whole _ List.mem_cons_self
      exact ⟨[.comment text], [], wordsFrom_comment_append line clean, .refl _,
        List.forall_mem_nil _⟩
  | @append a b first later _ _ ihFront ihBack =>
      obtain ⟨wholeFront, wholeBack⟩ := unbroken_append.mp whole
      obtain ⟨front, urls, readsFront, permFront, ownFront⟩ := ihFront wholeFront
      obtain ⟨back, more, readsBack, permBack, ownBack⟩ := ihBack wholeBack
      refine ⟨front ++ back, urls ++ more, fun rest => ?_, ?_,
        List.forall_mem_append.mpr ⟨ownFront, ownBack⟩⟩
      · rw [String.toList_append, List.append_assoc, readsFront, readsBack, Option.map_map]
        simp only [Function.comp_def, List.append_assoc]
      · refine (permFront.append permBack).trans ?_
        rw [List.append_assoc, List.append_assoc]
        exact (List.perm_append_comm_assoc urls later more).append_left first

/-- If a literal has a carriage return and no comment has one, nothing is read. -/
theorem stops (spells : l.Spells s words) (comments : UnbrokenComments words)
    (broken : ¬ Unbroken words) (rest : List Char) :
    l.wordsFrom 0 (s.toList ++ rest) = none := by
  induction spells generalizing rest with
  | nil | char _ | address _ => exact absurd (List.forall_mem_nil _) broken
  | literal text =>
      have ended := Decidable.not_not.mp fun whole => broken (unbroken_literal.mpr whole)
      exact wordsFrom_broken ended rest
  | @comment text line =>
      exact absurd (unbroken_comment.mpr (comments text List.mem_cons_self)) broken
  | @append a b first later front _ ihFront ihBack =>
      obtain ⟨commentsFront, commentsBack⟩ := unbrokenComments_append.mp comments
      rw [String.toList_append, List.append_assoc]
      by_cases whole : Unbroken first
      · obtain ⟨found, -, reads, -, -⟩ := front.reads whole
        have brokenBack : ¬ Unbroken later :=
          fun clean => broken (unbroken_append.mpr ⟨whole, clean⟩)
        rw [reads, ihBack commentsBack brokenBack rest, Option.map_none]
      · exact ihFront commentsFront whole _

/-- The words of a code are found in it exactly if there is no carriage return in any of them. -/
theorem finds_iff (spells : UnbrokenComments words → l.Spells s words) :
    l.Finds s words ↔ Unbroken words := by
  constructor
  · rintro ⟨found, addresses, read, perm, -⟩
    have comments : UnbrokenComments words := fun text member =>
      unbrokenComments_of_wordsFrom read text
        (perm.mem_iff.mpr (List.mem_append_left addresses member))
    refine Decidable.byContradiction fun broken => ?_
    have stopped := (spells comments).stops comments broken []
    rw [List.append_nil, read] at stopped
    cases stopped
  · intro whole
    obtain ⟨found, addresses, reads, perm, own⟩ := (spells whole.comments).reads whole
    refine ⟨found, addresses, ?_, perm, own⟩
    have read := reads []
    rwa [List.append_nil, wordsFrom, Option.map_some, List.append_nil] at read

end Spells

end Lexis

end Handoff.Text
