import Handoff.Color.Hex
import Handoff.Proofs.Decimal.Powers
import Handoff.Proofs.Text.Alphabet

/-!
Hexadecimal texts of colors, written and read back.

A channel is written as its byte, and the channel that is read for a byte rounds to it again
(`byte_channel`), whatever the channel was before.  So the text of a color, with its alpha, stands
for the bytes of the color and for nothing else, and the text without alpha stands for the opaque
color of the same bytes (`writtenAs_hex`).

A text is read two characters at a time, and each pair goes to a reader of numbers that takes a plus
sign in front of the digits.  So the texts that are read are more than the hexadecimal colors
(`not_isHexColor_signed`), and just those more that have a plus sign for the first digit of a pair
(`readAs_ofHex`).  The reader takes its pairs at byte positions.  `ofHexAt` reads like this, and has
no answer at all if a position is past the end of the text or inside a character.
-/

namespace Handoff.Color

open Decimal (IsUnits rounded? roundDiv isUnits_ofNat)
open Text (hexDigit hexPair hexValue? hexValue?_hexDigit)

/-! ## Channels -/

/-- The channel of a byte, in units. -/
def channelUnits? (n : Nat) : Option Nat :=
  rounded? (n <<< 149 <<< 149) (255 <<< 149)

theorem isUnits_channel {n a : Nat} (small : n < 256) (known : channelUnits? n = some a) :
    IsUnits (channel n) a :=
  have unit : IsUnits 255.0 (255 <<< 149) := by decide +kernel
  (isUnits_ofNat (by omega)).div unit known

/-- A channel up to one is not clamped. -/
theorem clampUnit32_of_isUnits {c : Float32} {a : Nat} (hc : IsUnits c a) (le : a ≤ 1 <<< 149) :
    Decimal.clampUnit32 c = c := by
  have zero : IsUnits 0.0 0 := by decide +kernel
  have one : IsUnits 1.0 (1 <<< 149) := by decide +kernel
  have raised : ¬c < 0.0 := fun less => Nat.not_lt_zero a ((hc.lt_iff zero).mp less)
  have lowered : ¬c > 1.0 := fun more => Nat.not_lt.mpr le ((one.lt_iff hc).mp more)
  rw [Decimal.clampUnit32, if_neg raised]
  exact if_neg lowered

/-- A number of units rounded to a byte. -/
theorem toClampedNat32_of_isUnits {x : Float32} {u : Nat} (hx : IsUnits x u)
    (small : roundDiv .awayFromZero u (1 <<< 149) < 256) :
    Decimal.toClampedNat32 255 (Decimal.roundHalfAway32 x) =
      roundDiv .awayFromZero u (1 <<< 149) := by
  obtain ⟨b, read, least, rfl, sign⟩ := hx.exists_binary
  have rounded : b.roundScaled .awayFromZero 1 =
      roundDiv .awayFromZero (b.mantissa * 2 ^ (b.exponent + 149).toNat) (1 <<< 149) := by
    rw [Decimal.Binary.roundScaled, Decimal.Binary.ratio]
    refine Decimal.roundDiv_congr (Nat.two_pow_pos _) (by decide) ?_
    have exponents : 2 ^ b.exponent.toNat * 2 ^ 149 =
        2 ^ (b.exponent + 149).toNat * 2 ^ (-b.exponent).toNat := by
      rw [← Nat.pow_add, ← Nat.pow_add]
      congr 1
      omega
    rw [Nat.pow_eq, Nat.pow_eq, Nat.mul_one, Nat.one_shiftLeft, Nat.mul_assoc, Nat.mul_assoc,
      exponents]
  have positive : ∀ k : Fin 256,
      Decimal.toClampedNat32 255 (⟨false, k, 0⟩ : Decimal.Binary).toFloat32 = k := by decide +kernel
  have zero : ∀ negative,
      Decimal.toClampedNat32 255 (⟨negative, 0, 0⟩ : Decimal.Binary).toFloat32 = 0 := by
    decide +kernel
  rw [Decimal.roundHalfAway32, read]
  dsimp only
  rw [rounded]
  rcases Nat.eq_zero_or_pos (b.mantissa * 2 ^ (b.exponent + 149).toNat) with none | some
  · have least : roundDiv .awayFromZero 0 (1 <<< 149) = 0 := by decide
    rw [none, least]
    exact zero _
  · rw [sign some]
    exact positive ⟨_, small⟩

/-- The byte that the channel of a byte is rounded to. -/
def channelByte? (n : Nat) : Option Nat := do
  let a ← channelUnits? n
  let u ← rounded? (a * (255 <<< 149)) (1 <<< 149)
  if a ≤ 1 <<< 149 then some (roundDiv .awayFromZero u (1 <<< 149)) else none

theorem byte_of_channelByte? {n m : Nat} (small : n < 256) (small' : m < 256)
    (known : channelByte? n = some m) : byte (channel n) = m := by
  rw [channelByte?] at known
  obtain ⟨a, ha, known⟩ := Option.bind_eq_some_iff.mp known
  obtain ⟨u, hu, known⟩ := Option.bind_eq_some_iff.mp known
  split at known
  · rename_i le
    obtain rfl := Option.some.inj known
    have hc := isUnits_channel small ha
    have unit : IsUnits 255.0 (255 <<< 149) := by decide +kernel
    rw [byte, clampUnit32_of_isUnits hc le]
    exact toClampedNat32_of_isUnits (hc.mul unit hu) small'
  · cases known

/-- A byte comes back from its channel. -/
theorem byte_channel {n : Nat} (small : n < 256) : byte (channel n) = n :=
  byte_of_channelByte? small small
    ((by decide +kernel : ∀ k : Fin 256, channelByte? k = some k.val) ⟨n, small⟩)

theorem byte_one : byte 1.0 = 255 := by decide +kernel

theorem bytes_ofBytes {r g b : Nat} (red : r < 256) (green : g < 256) (blue : b < 256) :
    (ofBytes r g b).bytes = ⟨r, g, b, 255⟩ := by
  simp only [bytes, ofBytes, rgb, byte_channel red, byte_channel green, byte_channel blue, byte_one]

theorem bytes_ofBytes_withAlpha {r g b a : Nat} (red : r < 256) (green : g < 256) (blue : b < 256)
    (alpha : a < 256) : ({ ofBytes r g b with a := channel a } : Color).bytes = ⟨r, g, b, a⟩ := by
  simp only [bytes, ofBytes, rgb, byte_channel red, byte_channel green, byte_channel blue,
    byte_channel alpha]

/-! ## Pairs of digits -/

/-- A pair of digits is read as the byte that it was written for. -/
theorem pairValue?_hexPair {n : Nat} (small : n < 256) :
    pairValue? (hexDigit (n / 16)) (hexDigit (n % 16)) = some n := by
  have unsigned : ∀ d < 16, hexDigit d ≠ '+' := by decide
  have high : n / 16 < 16 := by omega
  have low : n % 16 < 16 := by omega
  have value : n / 16 * 16 + n % 16 = n := by omega
  rw [pairValue?, if_neg (unsigned _ high), hexValue?_hexDigit high, hexValue?_hexDigit low]
  simp only [Option.bind_eq_bind, Option.bind_some, value, Option.pure_def]

/-- No digit is a hash sign, so only the one in front is skipped. -/
theorem ofHex?_hexPair {first : Nat} (small : first < 256) (rest : List Char) :
    ofHex? (String.ofList ('#' :: (hexPair first ++ rest))) =
      ofDigits? (hexPair first ++ rest) := by
  have digit : ∀ d < 16, (hexDigit d == '#') = false := by decide
  have high : (hexDigit (first / 16) == '#') = false := digit _ (by omega)
  rw [ofHex?, String.toList_ofList, List.dropWhile_cons_of_pos (by decide), hexPair,
    List.cons_append, List.dropWhile_cons_of_neg (by rw [high]; decide)]

/-- Six digits are read as the opaque color of the bytes that they were written for. -/
theorem ofDigits?_rgb {r g b : Nat} (red : r < 256) (green : g < 256) (blue : b < 256) :
    ofDigits? (hexPair r ++ (hexPair g ++ hexPair b)) = some (ofBytes r g b) := by
  simp only [hexPair, List.cons_append, List.nil_append, ofDigits?, pairValue?_hexPair red,
    pairValue?_hexPair green, pairValue?_hexPair blue, Option.bind_eq_bind, Option.bind_some,
    Option.pure_def]

/-- Eight digits are read as the color of the bytes that they were written for. -/
theorem ofDigits?_rgba {r g b a : Nat} (red : r < 256) (green : g < 256) (blue : b < 256)
    (alpha : a < 256) :
    ofDigits? (hexPair r ++ (hexPair g ++ (hexPair b ++ hexPair a))) =
      some { ofBytes r g b with a := channel a } := by
  simp only [hexPair, List.cons_append, List.nil_append, ofDigits?, pairValue?_hexPair red,
    pairValue?_hexPair green, pairValue?_hexPair blue, pairValue?_hexPair alpha,
    Option.bind_eq_bind, Option.bind_some, Option.pure_def]

/-! ## Texts of colors -/

/-- The text with alpha looks at the bytes of a color only. -/
theorem hexAlpha_congr {c d : Color} (same : c.bytes = d.bytes) : c.hexAlpha = d.hexAlpha := by
  rw [hexAlpha, hexAlpha, same]

/-- The text without alpha is read as the opaque color of the same bytes. -/
theorem ofHex?_hex (c : Color) :
    ofHex? c.hex = some (ofBytes c.bytes.r c.bytes.g c.bytes.b) := by
  have text : c.hex =
      String.ofList ('#' :: (hexPair c.bytes.r ++ (hexPair c.bytes.g ++ hexPair c.bytes.b))) := by
    rw [hex]
    simp only [List.cons_append, List.append_assoc]
  have red : c.bytes.r < 256 := byte_lt c.r
  have green : c.bytes.g < 256 := byte_lt c.g
  have blue : c.bytes.b < 256 := byte_lt c.b
  rw [text, ofHex?_hexPair red, ofDigits?_rgb red green blue]

/-- The text with alpha is read as a color of the same bytes. -/
theorem exists_ofHex?_hexAlpha (c : Color) :
    ∃ d, ofHex? c.hexAlpha = some d ∧ d.bytes = c.bytes := by
  have red : c.bytes.r < 256 := byte_lt c.r
  have green : c.bytes.g < 256 := byte_lt c.g
  have blue : c.bytes.b < 256 := byte_lt c.b
  have alpha : c.bytes.a < 256 := byte_lt c.a
  by_cases solid : c.bytes.a = 255
  · have text : c.hexAlpha = c.hex := by
      rw [hexAlpha, hex]
      simp only [solid, if_true, List.append_nil]
    refine ⟨_, text ▸ ofHex?_hex c, ?_⟩
    rw [bytes_ofBytes red green blue, ← solid]
  · have text : c.hexAlpha = String.ofList ('#' :: (hexPair c.bytes.r ++
        (hexPair c.bytes.g ++ (hexPair c.bytes.b ++ hexPair c.bytes.a)))) := by
      rw [hexAlpha]
      simp only [solid, if_false, List.cons_append, List.append_assoc]
    refine ⟨{ ofBytes c.bytes.r c.bytes.g c.bytes.b with a := channel c.bytes.a }, ?_, ?_⟩
    · rw [text, ofHex?_hexPair red, ofDigits?_rgba red green blue alpha]
    · rw [bytes_ofBytes_withAlpha red green blue alpha]

/-- What the two texts of a color stand for. -/
structure WrittenAs (c : Color) : Prop where
  /-- The text with alpha is read as a color of the same bytes, which is written the same. -/
  withAlpha : ∃ d, ofHex? c.hexAlpha = some d ∧ d.bytes = c.bytes ∧ d.hexAlpha = c.hexAlpha
  /-- The text without alpha is read as an opaque color of the same three bytes. -/
  withoutAlpha : ∃ d, ofHex? c.hex = some d ∧ d.isOpaque = true ∧
    d.bytes.r = c.bytes.r ∧ d.bytes.g = c.bytes.g ∧ d.bytes.b = c.bytes.b
  /-- No color of other bytes has the same text with alpha. -/
  distinct : ∀ d : Color, c.hexAlpha = d.hexAlpha ↔ c.bytes = d.bytes

/-- Whatever its channels are, a color is written as its bytes: they are read back from its text,
and colors are written the same if and only if they have the same bytes. -/
theorem writtenAs_hex (c : Color) : c.WrittenAs := by
  constructor
  case withAlpha =>
    obtain ⟨d, read, same⟩ := exists_ofHex?_hexAlpha c
    exact ⟨d, read, same, hexAlpha_congr same⟩
  case withoutAlpha =>
    have own : (ofBytes c.bytes.r c.bytes.g c.bytes.b).bytes = _ :=
      bytes_ofBytes (byte_lt c.r) (byte_lt c.g) (byte_lt c.b)
    refine ⟨_, ofHex?_hex c, ?_, ?_⟩
    · exact beq_iff_eq.mpr byte_one
    · rw [own]
      exact ⟨rfl, rfl, rfl⟩
  case distinct =>
    intro d
    refine ⟨fun alike => ?_, hexAlpha_congr⟩
    obtain ⟨read, first, own⟩ := exists_ofHex?_hexAlpha c
    obtain ⟨read', second, own'⟩ := exists_ofHex?_hexAlpha d
    rw [← alike, first] at second
    rw [← own, ← own', Option.some.inj second]

end Handoff.Color

/-! ## Texts that are read -/

namespace Handoff.Color

open Text (hexValue?)

/-! ## Hexadecimal colors -/

/-- A hexadecimal digit of either case. -/
def isHexDigit (c : Char) : Bool :=
  ('0' ≤ c && c ≤ '9') || ('a' ≤ c && c ≤ 'f') || ('A' ≤ c && c ≤ 'F')

/-- A text without the hash signs in front. -/
def unhashed (s : String) : List Char :=
  s.toList.dropWhile (· == '#')

/-- Six or eight hexadecimal digits, which any hash signs may precede. -/
def IsHexColor (s : String) : Prop :=
  ((unhashed s).length = 6 ∨ (unhashed s).length = 8) ∧ ∀ c ∈ unhashed s, isHexDigit c = true

/-- Two hexadecimal digits, or a plus sign and one digit. -/
def isPair (high low : Char) : Bool :=
  (isHexDigit high || high == '+') && isHexDigit low

/-- Pairs one after another. -/
def arePairs : List Char → Bool
  | [] => true
  | [_] => false
  | high :: low :: rest => isPair high low && arePairs rest

/-- The value of a digit; no other character has one. -/
def digitValue (c : Char) : Nat :=
  (hexValue? c).getD 0

/-- The values of pairs of digits. -/
def pairValues : List Char → List Nat
  | high :: low :: rest => (digitValue high * 16 + digitValue low) :: pairValues rest
  | _ => []

theorem isSome_hexValue? (c : Char) : (hexValue? c).isSome = isHexDigit c := by
  unfold hexValue? isHexDigit
  by_cases decimal : '0' ≤ c ∧ c ≤ '9'
  · simp [decimal]
  · by_cases lower : 'a' ≤ c ∧ c ≤ 'f'
    · simp [decimal, lower]
    · by_cases upper : 'A' ≤ c ∧ c ≤ 'F'
      · simp [decimal, lower, upper]
      · simp only [decimal, lower, upper, if_false, Option.isSome_none, ← Bool.decide_and, Bool.or_self,
          decide_false]

/-- A digit is read as its value. -/
theorem hexValue?_eq (c : Char) :
    hexValue? c = if isHexDigit c = true then some (digitValue c) else none := by
  rw [← isSome_hexValue?, digitValue]
  cases hexValue? c <;> rfl

/-- Without a plus sign, pairs of digits are just digits. -/
theorem arePairs_iff {cs : List Char} (even : cs.length % 2 = 0) (unsigned : '+' ∉ cs) :
    arePairs cs = true ↔ ∀ c ∈ cs, isHexDigit c = true := by
  fun_induction arePairs cs with
  | case1 => simp
  | case2 c => cases even
  | case3 high low rest ih =>
    have others : '+' ∉ rest := fun member => unsigned (by simp [member])
    have plain : high ≠ '+' := fun same => unsigned (by simp [same])
    have shorter : rest.length % 2 = 0 := by
      simp only [List.length_cons] at even
      omega
    simp [isPair, ih shorter others, plain, and_assoc]

/-! ## Reading -/

theorem pairValue?_eq (high low : Char) : pairValue? high low =
    if isPair high low = true then some (digitValue high * 16 + digitValue low) else none := by
  unfold pairValue? isPair
  by_cases signed : high = '+'
  · have none : digitValue '+' = 0 := by decide
    subst signed
    simp [hexValue?_eq, none]
  · simp only [signed, if_false, hexValue?_eq]
    by_cases first : isHexDigit high = true <;> by_cases second : isHexDigit low = true <;>
      simp [first, second, signed]

/-- The color of the values of three or four pairs. -/
def ofValues? : List Nat → Option Color
  | [r, g, b] => some (ofBytes r g b)
  | [r, g, b, a] => some { ofBytes r g b with a := channel a }
  | _ => none

/-- Six or eight characters are read if they are pairs. -/
theorem ofDigits?_of_length {cs : List Char} (length : cs.length = 6 ∨ cs.length = 8) :
    ofDigits? cs = if arePairs cs = true then ofValues? (pairValues cs) else none := by
  rcases length with six | eight
  · match cs, six with
    | [r1, r0, g1, g0, b1, b0], _ =>
      by_cases red : isPair r1 r0 = true <;> by_cases green : isPair g1 g0 = true <;>
        by_cases blue : isPair b1 b0 = true <;>
        simp [ofDigits?, pairValue?_eq, arePairs, pairValues, ofValues?, red, green, blue]
  · match cs, eight with
    | [r1, r0, g1, g0, b1, b0, a1, a0], _ =>
      by_cases red : isPair r1 r0 = true <;> by_cases green : isPair g1 g0 = true <;>
        by_cases blue : isPair b1 b0 = true <;> by_cases alpha : isPair a1 a0 = true <;>
        simp [ofDigits?, pairValue?_eq, arePairs, pairValues, ofValues?, red, green, blue, alpha]

/-- No other number of characters is read. -/
theorem length_of_ofDigits? {cs : List Char} {c : Color} (read : ofDigits? cs = some c) :
    cs.length = 6 ∨ cs.length = 8 := by
  unfold ofDigits? at read
  split at read
  · exact .inl rfl
  · exact .inr rfl
  · cases read

theorem arePairs_of_ofDigits? {cs : List Char} {c : Color} (read : ofDigits? cs = some c) :
    arePairs cs = true := by
  rw [ofDigits?_of_length (length_of_ofDigits? read)] at read
  split at read
  · assumption
  · cases read

/-- The channels of a color that is read are the values of its pairs, and an opaque alpha if there
are but three of them. -/
theorem channels_of_ofDigits? {cs : List Char} {c : Color} (read : ofDigits? cs = some c) :
    [c.r, c.g, c.b, c.a] = (pairValues cs).map (fun n => Float32.ofNat n / 255.0) ++
      if cs.length = 6 then [1.0] else [] := by
  have length := length_of_ofDigits? read
  have pairs := arePairs_of_ofDigits? read
  rw [ofDigits?_of_length length, if_pos pairs] at read
  rcases length with six | eight
  · match cs, six with
    | [r1, r0, g1, g0, b1, b0], _ =>
      cases read
      rfl
  · match cs, eight with
    | [r1, r0, g1, g0, b1, b0, a1, a0], _ =>
      cases read
      rfl

theorem isSome_ofHex?_iff (s : String) : (ofHex? s).isSome = true ↔
    ((unhashed s).length = 6 ∨ (unhashed s).length = 8) ∧ arePairs (unhashed s) = true := by
  have read : ofHex? s = ofDigits? (unhashed s) := rfl
  have values : ∀ {cs : List Char}, cs.length = 6 ∨ cs.length = 8 →
      (ofValues? (pairValues cs)).isSome = true := by
    rintro cs (six | eight)
    · match cs, six with
      | [_, _, _, _, _, _], _ => rfl
    · match cs, eight with
      | [_, _, _, _, _, _, _, _], _ => rfl
  rw [read]
  constructor
  · intro present
    obtain ⟨c, found⟩ := Option.isSome_iff_exists.mp present
    exact ⟨length_of_ofDigits? found, arePairs_of_ofDigits? found⟩
  · rintro ⟨length, pairs⟩
    rw [ofDigits?_of_length length, if_pos pairs]
    exact values length

/-! ## Byte positions -/

/-- What stands before a byte position and what stands after it, if the position is one between
characters. -/
def splitAtByte? : Nat → List Char → Option (List Char × List Char)
  | 0, cs => some ([], cs)
  | _ + 1, [] => none
  | n + 1, c :: cs =>
    if c.utf8Size ≤ n + 1 then
      (splitAtByte? (n + 1 - c.utf8Size) cs).map fun (front, back) => (c :: front, back)
    else none

/-- What stands between two byte positions. -/
def slice? (first last : Nat) (cs : List Char) : Option (List Char) := do
  let (_, back) ← splitAtByte? first cs
  let (middle, _) ← splitAtByte? (last - first) back
  return middle

/-- How many bytes some characters take. -/
def byteLength : List Char → Nat
  | [] => 0
  | c :: cs => c.utf8Size + byteLength cs

/-- The byte that some characters are the numeral of: digits, and a plus sign before them if need
be. -/
def byteOf? (cs : List Char) : Option Nat :=
  let digits := if cs.head? = some '+' then cs.tail else cs
  if digits = [] then none
  else (digits.foldlM (fun n c => (hexValue? c).map (n * 16 + ·)) 0).filter (· < 256)

/-- Reads a hexadecimal color by byte positions.  Whether there is an answer at all is one thing,
whether it is a color another. -/
def ofHexAt (s : String) : OptionT Option Color :=
  let cs := unhashed s
  let value (i : Nat) : OptionT Option Nat := OptionT.mk ((slice? i (i + 2) cs).map byteOf?)
  if cs.all (·.val ≤ 127) then
    match byteLength cs with
    | 6 => do return ofBytes (← value 0) (← value 2) (← value 4)
    | 8 => do
      let c := ofBytes (← value 0) (← value 2) (← value 4)
      return { c with a := channel (← value 6) }
    | _ => failure
  else failure

theorem splitAtByte?_of_ascii {cs : List Char} (ascii : ∀ c ∈ cs, c.utf8Size = 1) {n : Nat}
    (inside : n ≤ cs.length) : splitAtByte? n cs = some (cs.take n, cs.drop n) := by
  induction cs generalizing n with
  | nil =>
    obtain rfl : n = 0 := Nat.le_zero.mp inside
    rfl
  | cons c rest ih =>
    cases n with
    | zero => rfl
    | succ n =>
      have own := ascii c List.mem_cons_self
      have later := ih (fun d member => ascii d (List.mem_cons_of_mem c member))
        (Nat.le_of_succ_le_succ inside)
      rw [splitAtByte?, own, if_pos (Nat.le_add_left 1 n), Nat.add_sub_cancel, later]
      rfl

theorem byteLength_of_ascii {cs : List Char} (ascii : ∀ c ∈ cs, c.utf8Size = 1) :
    byteLength cs = cs.length := by
  induction cs with
  | nil => rfl
  | cons c rest ih =>
    rw [byteLength, ascii c List.mem_cons_self, List.length_cons, Nat.add_comm 1,
      ih fun d member => ascii d (List.mem_cons_of_mem c member)]

theorem slice?_of_ascii {cs : List Char} (ascii : ∀ c ∈ cs, c.utf8Size = 1) {i : Nat}
    (inside : i + 2 ≤ cs.length) : slice? i (i + 2) cs = some ((cs.drop i).take 2) := by
  have back : ∀ c ∈ cs.drop i, c.utf8Size = 1 := fun c member => ascii c (List.mem_of_mem_drop member)
  have left : 2 ≤ (cs.drop i).length := by
    rw [List.length_drop]
    omega
  have width : i + 2 - i = 2 := by omega
  rw [slice?, splitAtByte?_of_ascii ascii (by omega)]
  simp only [Option.bind_eq_bind, Option.bind_some, width, splitAtByte?_of_ascii back left,
    Option.pure_def]

theorem hexValue?_lt {c : Char} {v : Nat} (read : hexValue? c = some v) : v < 16 := by
  unfold hexValue? at read
  split at read
  · rename_i digit
    have upper : c.toNat ≤ 57 := digit.2
    have zero : '0'.toNat = 48 := rfl
    have value := Option.some.inj read
    omega
  · split at read
    · rename_i digit
      have upper : c.toNat ≤ 102 := digit.2
      have first : 'a'.toNat = 97 := rfl
      have value := Option.some.inj read
      omega
    · split at read
      · rename_i digit
        have upper : c.toNat ≤ 70 := digit.2
        have first : 'A'.toNat = 65 := rfl
        have value := Option.some.inj read
        omega
      · cases read

/-- Of two characters, the reader of numbers takes just the pairs. -/
theorem byteOf?_pair (high low : Char) : byteOf? [high, low] = pairValue? high low := by
  unfold byteOf? pairValue?
  by_cases signed : high = '+'
  · subst signed
    cases read : hexValue? low with
    | none => simp [read]
    | some v =>
      have small := hexValue?_lt read
      simp [read]
      omega
  · cases first : hexValue? high with
    | none => simp [signed, first]
    | some v =>
      cases second : hexValue? low with
      | none => simp [signed, first, second]
      | some w =>
        have large := hexValue?_lt first
        have small := hexValue?_lt second
        simp [signed, first, second]
        omega

theorem ascii_of_isHexDigit {c : Char} (digit : isHexDigit c = true) : c.val ≤ 127 := by
  have highest : ∀ d : Char, d.val ≤ 127 → c ≤ d → c.val ≤ 127 :=
    fun d low below => UInt32.le_trans below low
  simp only [isHexDigit, Bool.or_eq_true, Bool.and_eq_true, decide_eq_true_eq] at digit
  rcases digit with (⟨-, decimal⟩ | ⟨-, lower⟩) | ⟨-, upper⟩
  · exact highest '9' (by decide) decimal
  · exact highest 'f' (by decide) lower
  · exact highest 'F' (by decide) upper

theorem ascii_of_arePairs {cs : List Char} (pairs : arePairs cs = true) :
    ∀ c ∈ cs, c.val ≤ 127 := by
  fun_induction arePairs cs with
  | case1 => exact fun c member => nomatch member
  | case2 c => cases pairs
  | case3 high low rest ih =>
    obtain ⟨pair, others⟩ := Bool.and_eq_true_iff.mp pairs
    obtain ⟨first, second⟩ := Bool.and_eq_true_iff.mp pair
    refine List.forall_mem_cons.mpr ⟨?_, List.forall_mem_cons.mpr
      ⟨ascii_of_isHexDigit second, ih others⟩⟩
    rcases Bool.or_eq_true_iff.mp first with digit | signed
    · exact ascii_of_isHexDigit digit
    · rw [beq_iff_eq.mp signed]
      decide

/-- Every byte position that is asked for lies between two characters of the text. -/
theorem run_ofHexAt (s : String) : (ofHexAt s).run = some (ofHex? s) := by
  have read : ofHex? s = ofDigits? (unhashed s) := rfl
  rw [read]
  unfold ofHexAt
  generalize unhashed s = cs
  by_cases ascii : cs.all (·.val ≤ 127) = true
  · have single : ∀ c ∈ cs, c.utf8Size = 1 := by
      intro c member
      exact Char.utf8Size_eq_one_iff.mpr (decide_eq_true_iff.mp (List.all_eq_true.mp ascii c member))
    simp only [ascii, if_true, byteLength_of_ascii single]
    by_cases length : cs.length = 6 ∨ cs.length = 8
    · rcases length with six | eight
      · match cs, six with
        | [r1, r0, g1, g0, b1, b0], _ =>
          have red : slice? 0 2 _ = some [r1, r0] := slice?_of_ascii single (by simp)
          have green : slice? 2 4 _ = some [g1, g0] := slice?_of_ascii single (by simp)
          have blue : slice? 4 6 _ = some [b1, b0] := slice?_of_ascii single (by simp)
          simp only [List.length_cons, List.length_nil, red, green, blue, Option.map_some,
            byteOf?_pair, ofDigits?]
          cases pairValue? r1 r0 <;> cases pairValue? g1 g0 <;> cases pairValue? b1 b0 <;> rfl
      · match cs, eight with
        | [r1, r0, g1, g0, b1, b0, a1, a0], _ =>
          have red : slice? 0 2 _ = some [r1, r0] := slice?_of_ascii single (by simp)
          have green : slice? 2 4 _ = some [g1, g0] := slice?_of_ascii single (by simp)
          have blue : slice? 4 6 _ = some [b1, b0] := slice?_of_ascii single (by simp)
          have alpha : slice? 6 8 _ = some [a1, a0] := slice?_of_ascii single (by simp)
          simp only [List.length_cons, List.length_nil, red, green, blue, alpha, Option.map_some,
            byteOf?_pair, ofDigits?]
          cases pairValue? r1 r0 <;> cases pairValue? g1 g0 <;> cases pairValue? b1 b0 <;>
            cases pairValue? a1 a0 <;> rfl
    · have other : ofDigits? cs = none :=
        Option.eq_none_iff_forall_ne_some.mpr fun c found => length (length_of_ofDigits? found)
      rw [other]
      split
      · exact absurd (.inl ‹_›) length
      · exact absurd (.inr ‹_›) length
      · rfl
  · have other : ofDigits? cs = none := by
      refine Option.eq_none_iff_forall_ne_some.mpr fun c found => ascii ?_
      exact List.all_eq_true.mpr fun d member =>
        decide_eq_true (ascii_of_arePairs (arePairs_of_ofDigits? found) d member)
    simp only [ascii, other]
    rfl

/-! ## The colors that are read -/

/-- How a text is read as a color. -/
structure ReadAs (s : String) : Prop where
  /-- What is read is six or eight characters after the hash signs, in pairs of digits, for the
  first of which a plus sign may stand. -/
  read : (ofHex? s).isSome = true ↔
    ((unhashed s).length = 6 ∨ (unhashed s).length = 8) ∧ arePairs (unhashed s) = true
  /-- Without a plus sign, these are the hexadecimal colors. -/
  hexColor : '+' ∉ unhashed s → ((ofHex? s).isSome = true ↔ IsHexColor s)
  /-- All hexadecimal colors are read. -/
  complete : IsHexColor s → (ofHex? s).isSome = true
  /-- The channels are the values of the pairs over 255, and alpha is one if there are but three. -/
  channels : ∀ c, ofHex? s = some c → [c.r, c.g, c.b, c.a] =
    (pairValues (unhashed s)).map (fun n => Float32.ofNat n / 255.0) ++
      if (unhashed s).length = 6 then [1.0] else []
  /-- No byte position is asked for that is not one between characters. -/
  reached : (ofHexAt s).run = some (ofHex? s)

/-- Every text is read as a color, or refused, by its pairs of characters alone. -/
theorem readAs_ofHex (s : String) : ReadAs s := by
  have unsigned : ∀ {cs : List Char}, '+' ∉ cs → (cs.length = 6 ∨ cs.length = 8) →
      (arePairs cs = true ↔ ∀ c ∈ cs, isHexDigit c = true) :=
    fun plain length => arePairs_iff (by omega) plain
  have hexColor : '+' ∉ unhashed s → ((ofHex? s).isSome = true ↔ IsHexColor s) := by
    intro plain
    rw [isSome_ofHex?_iff]
    exact and_congr_right fun length => unsigned plain length
  constructor
  case read => exact isSome_ofHex?_iff s
  case hexColor => exact hexColor
  case complete =>
    intro color
    have plain : '+' ∉ unhashed s := fun member => absurd (color.2 '+' member) (by decide)
    exact (hexColor plain).mpr color
  case channels => exact fun c read => channels_of_ofDigits? read
  case reached => exact run_ofHexAt s

/-- Three plus signs and three digits are read as a color, although they are no hexadecimal color. -/
theorem not_isHexColor_signed : ¬∀ s : String, (ofHex? s).isSome = true ↔ IsHexColor s := by
  intro all
  have color := (all "#+f+f+f").mp (by decide +kernel)
  exact absurd (color.2 '+' (by decide +kernel)) (by decide)

end Handoff.Color
