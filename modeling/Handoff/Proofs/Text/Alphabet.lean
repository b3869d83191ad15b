import Handoff.Css.Style
import Handoff.Proofs.Text.Declared

/-!
Texts over an alphabet.

`Text.Within allowed s` says that all characters of a text are allowed.  Numbers are written with
letters, digits, dashes and points (`Text.isWordChar`), whatever they are, and colors and
gradients with little more (`Text.isValueChar`).
-/

namespace Handoff

namespace Text

variable {allowed : Char → Bool} {a b s : String}

/-- All characters of a text are allowed. -/
def Within (allowed : Char → Bool) (s : String) : Prop := ∀ c ∈ s.toList, allowed c = true

instance (allowed : Char → Bool) (s : String) : Decidable (Within allowed s) :=
  List.decidableBAll (fun c => allowed c = true) s.toList

@[simp]
theorem within_append : Within allowed (a ++ b) ↔ Within allowed a ∧ Within allowed b := by
  rw [Within, String.toList_append, List.forall_mem_append, Within, Within]

theorem within_ofList {cs : List Char} :
    Within allowed (String.ofList cs) ↔ ∀ c ∈ cs, allowed c = true := by
  rw [Within, String.toList_ofList]

theorem Within.mono {wider : Char → Bool} (within : Within allowed s)
    (each : ∀ c, allowed c = true → wider c = true) : Within wider s :=
  fun c member => each c (within c member)

theorem Within.not_mem {c : Char} (within : Within allowed s) (refused : allowed c = false) :
    c ∉ s.toList := by
  intro member
  rw [within c member] at refused
  cases refused

/-- What stands in joined texts stands in one of them, or between them. -/
theorem mem_toList_intercalate {c : Char} {separator : String} (between : c ∉ separator.toList)
    {texts : List String} :
    c ∈ (separator.intercalate texts).toList ↔ ∃ text ∈ texts, c ∈ text.toList := by
  induction texts with
  | nil => exact ⟨fun member => (nomatch member), fun ⟨_, member, _⟩ => (nomatch member)⟩
  | cons first rest ih =>
      cases rest with
      | nil => simp only [String.intercalate_singleton, List.mem_singleton, exists_eq_left]
      | cons next rest =>
          rw [String.intercalate_cons_cons, String.toList_append, String.toList_append,
            List.mem_append, List.mem_append, ih]
          simp only [between, or_false, List.mem_cons, exists_eq_or_imp]

theorem within_intercalate {texts : List String} {separator : String}
    (between : Within allowed separator) (all : ∀ text ∈ texts, Within allowed text) :
    Within allowed (separator.intercalate texts) := by
  intro c member
  by_cases inside : c ∈ separator.toList
  · exact between c inside
  · obtain ⟨text, among, own⟩ := (mem_toList_intercalate inside).mp member
    exact all text among c own

theorem within_substitute {c : Char} {replacement : List Char}
    (fits : Within allowed (String.ofList replacement))
    (others : Within (fun d => d == c || allowed d) s) :
    Within allowed (substitute c replacement s) := by
  rw [substitute, within_ofList]
  intro d member
  obtain ⟨e, inside, own⟩ := List.mem_flatMap.mp member
  split at own
  · exact within_ofList.mp fits d own
  · rename_i other
    rw [List.mem_singleton.mp own]
    have either : (e == c || allowed e) = true := others e inside
    rwa [beq_false_of_ne other, Bool.false_or] at either

/-! ## Texts around others -/

/-- What stands between a beginning and an end. -/
def between? (front back s : String) : Option String :=
  if front.toList.isPrefixOf s.toList ∧ back.toList.isSuffixOf s.toList then
    some (String.ofList ((s.toList.drop front.toList.length).take
      (s.toList.length - front.toList.length - back.toList.length)))
  else none

theorem between?_append (front back s : String) :
    between? front back (front ++ s ++ back) = some s := by
  have begins : front.toList.isPrefixOf (front ++ s ++ back).toList = true :=
    List.isPrefixOf_iff_prefix.mpr ⟨s.toList ++ back.toList, by simp⟩
  have ends : back.toList.isSuffixOf (front ++ s ++ back).toList = true :=
    List.isSuffixOf_iff_suffix.mpr ⟨front.toList ++ s.toList, by simp⟩
  have inside : (front ++ s ++ back).toList.length - front.toList.length - back.toList.length =
      s.toList.length := by
    simp only [String.toList_append, List.length_append]
    omega
  rw [between?, if_pos ⟨begins, ends⟩, inside]
  simp [List.append_assoc]

/-- What does not begin so stands between nothing. -/
theorem between?_eq_none {front back s : String} {c : Char} {others : List Char}
    (begins : front.toList = c :: others) (other : c ∉ s.toList) :
    between? front back s = none := by
  refine if_neg fun ⟨starts, _⟩ => other ?_
  obtain ⟨rest, same⟩ := List.isPrefixOf_iff_prefix.mp starts
  rw [← same, begins]
  exact List.mem_cons_self

/-! ## Alphabets -/

/-- Whether a character may stand in a number or a keyword. -/
def isWordChar (c : Char) : Bool := c.isAlphanum || c == '-' || c == '.'

/-- Whether a character may stand in a color or an address. -/
def isDenseChar (c : Char) : Bool := isWordChar c || ",#%/:()".toList.contains c

/-- Whether a character may stand in the text of numbers, keywords, colors and calls. -/
def isValueChar (c : Char) : Bool := isWordChar c || " ,#%/:()".toList.contains c

theorem isDenseChar_of_isWordChar {c : Char} (word : isWordChar c = true) :
    isDenseChar c = true := by
  rw [isDenseChar, word, Bool.true_or]

/-- In a value there are spaces besides. -/
theorem isValueChar_iff (c : Char) :
    isValueChar c = true ↔ c = ' ' ∨ isDenseChar c = true := by
  simp [isValueChar, isDenseChar, or_left_comm]

theorem Within.dense (within : Within isWordChar s) : Within isDenseChar s :=
  within.mono fun _ => isDenseChar_of_isWordChar

theorem Within.spaced (within : Within isDenseChar s) : Within isValueChar s :=
  within.mono fun c dense => (isValueChar_iff c).mpr (.inr dense)

theorem Within.value (within : Within isWordChar s) : Within isValueChar s :=
  within.dense.spaced

theorem isWordChar_of_isDigit {c : Char} (digit : c.isDigit = true) : isWordChar c = true := by
  rw [isWordChar, Char.isAlphanum, digit, Bool.or_true, Bool.true_or, Bool.true_or]

theorem isWordChar_of_mem_toDigits {n : Nat} {c : Char} (member : c ∈ Nat.toDigits 10 n) :
    isWordChar c = true :=
  isWordChar_of_isDigit (Nat.isDigit_of_mem_toDigits (by decide) (by decide) member)

theorem within_repr (n : Nat) : Within isWordChar (Nat.repr n) := by
  intro c member
  rw [Nat.toList_repr] at member
  exact isWordChar_of_mem_toDigits member

theorem within_intRepr (i : Int) : Within isWordChar (toString i) := by
  cases i with
  | ofNat n => exact within_repr n
  | negSucc n => exact within_append.mpr ⟨by decide, within_repr (n + 1)⟩

theorem within_hexPair {byte : Nat} (small : byte < 256) :
    ∀ c ∈ hexPair byte, isWordChar c = true := by
  have digits : ∀ d < 16, isWordChar (hexDigit d) = true := by decide
  intro c member
  rcases List.mem_cons.mp member with rfl | member
  · exact digits _ (by omega)
  · rw [List.mem_singleton.mp member]
    exact digits _ (by omega)

end Text

/-! ## Numbers -/

namespace Decimal

open Text (Within isWordChar within_append within_ofList)

theorem Numeral.within_wholeText (n : Numeral) : Within isWordChar n.wholeText := by
  rw [wholeText, within_append]
  refine ⟨?_, Text.within_repr n.whole⟩
  split <;> decide

theorem Numeral.within_digitsText {digits : List Nat} (small : ∀ d ∈ digits, d < 10) :
    Within isWordChar (digitsText digits) := by
  rw [digitsText, within_ofList]
  intro c member
  obtain ⟨d, among, rfl⟩ := List.mem_map.mp member
  have table : ∀ d < 10, isWordChar (Nat.digitChar d) = true := by decide
  exact table d (small d among)

theorem within_nonFiniteText (x : Float) : Within isWordChar (nonFiniteText x) := by
  unfold nonFiniteText
  repeat' split
  all_goals decide

theorem Numeral.within_fraction (places : Nat) (b : Binary) :
    Within isWordChar (digitsText (ofBinary places b).fraction) :=
  within_digitsText (lt_ten_of_mem_withoutTrailingZeros fun _ => lt_ten_of_mem_lowDigits)

theorem within_atMost (places : Nat) (x : Float) : Within isWordChar (atMost places x) := by
  unfold atMost
  split
  · rename_i b _
    have digits := Numeral.within_fraction places b
    rw [Numeral.text]
    split
    · exact Numeral.within_wholeText _
    · rw [within_append, within_append]
      exact ⟨⟨Numeral.within_wholeText _, by decide⟩, digits⟩
  · exact within_nonFiniteText x

theorem within_plain (x : Float) : Within isWordChar (plain x) := within_atMost 2 x

theorem within_pointed (x : Float) : Within isWordChar (pointed x) := by
  unfold pointed
  split
  · rename_i b _
    have digits := Numeral.within_fraction 2 b
    rw [Numeral.pointedText]
    split
    · exact within_append.mpr ⟨Numeral.within_wholeText _, by decide⟩
    · rw [within_append, within_append]
      exact ⟨⟨Numeral.within_wholeText _, by decide⟩, digits⟩
  · exact within_append.mpr ⟨within_nonFiniteText x, by decide⟩

/-- Digits, of which some may stand before a point and others after it. -/
theorem Positional.within_text (p : Positional) (s : Scientific) :
    Within isWordChar (p.text s) := by
  have digits : ∀ c ∈ Nat.toDigits 10 s.digits, isWordChar c = true :=
    fun c member => Text.isWordChar_of_mem_toDigits member
  have zeros : ∀ n, ∀ c ∈ List.replicate n '0', isWordChar c = true := by
    intro n c member
    rw [List.eq_of_mem_replicate member]
    rfl
  have head : ∀ n, ∀ c ∈ (Nat.toDigits 10 s.digits).take n, isWordChar c = true :=
    fun n c member => digits c (List.mem_of_mem_take member)
  have tail : ∀ n, ∀ c ∈ (Nat.toDigits 10 s.digits).drop n, isWordChar c = true :=
    fun n c member => digits c (List.mem_of_mem_drop member)
  unfold text
  dsimp only
  split
  · rw [within_append, within_append, within_ofList]
    refine ⟨⟨?_, by decide⟩, Text.within_intRepr _⟩
    split
    · exact head 1
    · rw [List.forall_mem_append, List.forall_mem_cons]
      exact ⟨head 1, rfl, tail 1⟩
  · split
    · refine within_append.mpr ⟨by decide, within_ofList.mpr ?_⟩
      exact List.forall_mem_append.mpr ⟨zeros _, digits⟩
    · split
      · refine within_append.mpr ⟨within_ofList.mpr ?_, by decide⟩
        exact List.forall_mem_append.mpr ⟨digits, zeros _⟩
      · rw [within_append, within_append]
        exact ⟨⟨within_ofList.mpr (head _), by decide⟩, within_ofList.mpr (tail _)⟩

theorem within_singleNumeral (x : Float32) : Within isWordChar (singleNumeral x) := by
  have sign : ∀ negative : Bool, Within isWordChar (if negative then "-" else "") := by decide
  unfold singleNumeral
  split
  · repeat' split
    all_goals decide
  · rename_i b _
    dsimp only
    split
    · exact within_append.mpr ⟨sign _, by decide⟩
    · split
      · rename_i s _
        refine within_append.mpr ⟨sign _, ?_⟩
        unfold Scientific.numeralText
        split
        · rw [within_ofList, List.forall_mem_append]
          refine ⟨fun c member => Text.isWordChar_of_mem_toDigits member, fun c member => ?_⟩
          rw [List.eq_of_mem_replicate member]
          rfl
        · exact Positional.within_text _ s
      · exact sign _

theorem toClampedNat32_le (hi : Nat) (x : Float32) : toClampedNat32 hi x ≤ hi := by
  unfold toClampedNat32
  split
  · split
    · exact Nat.zero_le hi
    · exact Nat.min_le_left _ _
  · repeat' split
    all_goals omega

end Decimal

/-! ## Colors and gradients -/

open Text (Within isDenseChar isValueChar within_append)

namespace Color

theorem byte_lt (c : Float32) : byte c < 256 :=
  Nat.lt_succ_of_le (Decimal.toClampedNat32_le 255 _)

theorem dense_hex (c : Color) : Within isDenseChar c.hex := by
  have pair : ∀ channel, ∀ d ∈ Text.hexPair (byte channel), isDenseChar d = true :=
    fun channel d member =>
      Text.isDenseChar_of_isWordChar (Text.within_hexPair (byte_lt channel) d member)
  rw [hex, Text.within_ofList]
  simp only [List.cons_append, List.forall_mem_cons, List.forall_mem_append]
  exact ⟨by decide, ⟨pair c.r, pair c.g⟩, pair c.b⟩

theorem within_css (c : Color) : Within isValueChar c.css := by
  unfold css
  split
  · exact (dense_hex c).spaced
  · have channel : ∀ n : Nat, Within isValueChar (toString n) :=
      fun n => (Text.within_repr n).value
    have comma : Within isValueChar ", " := by decide
    have front : Within isValueChar "rgba(" := by decide
    have back : Within isValueChar ")" := by decide
    simp only [within_append, channel, comma, front, back, and_true, true_and]
    exact (Decimal.within_singleNumeral _).value

end Color

namespace Css

theorem within_stop (s : Design.GradientStop) : Within isValueChar (stop s) := by
  rw [stop, within_append, within_append, within_append]
  have position := (Decimal.within_plain (s.position * 100.0)).value
  exact ⟨⟨⟨s.color.color.within_css, by decide⟩, position⟩, by decide⟩

theorem within_linearGradient (angle : Float) (stops : List Design.GradientStop) :
    Within isValueChar (linearGradient angle stops) := by
  have number := (Decimal.within_plain angle).value
  unfold linearGradient
  simp only [within_append]
  refine ⟨⟨⟨⟨by decide, number⟩, by decide⟩, ?_⟩, by decide⟩
  refine Text.within_intercalate (by decide) fun text member => ?_
  obtain ⟨s, -, rfl⟩ := List.mem_map.mp member
  exact within_stop s

end Css

end Handoff
