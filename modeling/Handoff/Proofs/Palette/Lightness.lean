import Handoff.Palette.Basic
import Handoff.Proofs.Color.Distance

/-!
How light the entries of a palette are.

Every entry is a color of three bytes.  Two entries that are different colors have different
lightnesses, and these are different numbers of steps of `2 ^ -23` (`entries_apart`).  So no two
entries that are different colors are at distance zero (`isPositive_distance`).

The lightnesses are worked out in units from the digits of the entries (`unitKey?`), and only those
are compared that are alike in a few of their bits (`agree`).
-/

namespace Handoff

open Decimal (IsPositive IsUnits powerUnits? rounded? steps? steps?_of_isUnits unitsOf)

/-! ## Characters of bytes -/

namespace Text

/-- The characters of the bytes of a text, if they are all ASCII. -/
def asciiChars? (s : String) : Option (List Char) :=
  let bytes := s.toByteArray.data.toList
  if bytes.all fun b => Nat.blt b.toNat 128 then some (bytes.map fun b => Char.ofNat b.toNat)
  else none

theorem utf8EncodeChar_ofNat {b : UInt8} (ascii : b.toNat < 128) :
    String.utf8EncodeChar (Char.ofNat b.toNat) = [b] := by
  have every : ∀ n < 128, String.utf8EncodeChar (Char.ofNat n) = [UInt8.ofNat n] := by
    decide +kernel
  rw [every _ ascii, UInt8.ofNat_toNat]

theorem toList_of_asciiChars? {s : String} {chars : List Char} (known : asciiChars? s = some chars) :
    s.toList = chars := by
  rw [asciiChars?] at known
  split at known
  · rename_i ascii
    rw [List.all_eq_true] at ascii
    have bytes : chars.flatMap String.utf8EncodeChar = s.toByteArray.data.toList := by
      rw [← Option.some.inj known, List.flatMap_map]
      exact (List.flatMap_congr fun b member => utf8EncodeChar_ofNat
        (Nat.blt_eq.mp (ascii b member))).trans (List.flatMap_singleton' _)
    have same : String.ofList chars = s := by
      rw [← String.toByteArray_inj, String.toByteArray_ofList, List.utf8Encode, bytes]
      exact ByteArray.ext (by rw [List.data_toByteArray, Array.toArray_toList])
    rw [← same, String.toList_ofList]
  · cases known

end Text

namespace Color

/-- The channels of all bytes in linear light. -/
def linearChannels : List Float32 :=
  (List.range 256).map fun n => linear (channel n)

theorem linearChannels_getElem? {n : ℕ} {x : Float32} (found : linearChannels[n]? = some x) :
    n < 256 ∧ x = linear (channel n) := by
  rw [linearChannels, List.getElem?_map] at found
  obtain ⟨m, listed, rfl⟩ := Option.map_eq_some_iff.mp found
  obtain ⟨bound, rfl⟩ := List.getElem?_eq_some_iff.mp listed
  rw [List.length_range] at bound
  rw [List.getElem_range]
  exact ⟨bound, rfl⟩

/-- The lightness of three channels in linear light. -/
def lightness (r g b : Float32) : Float32 :=
  116.0 * Lab.compand ((r * 0.2126729 + g * 0.7151522 + b * 0.0721750) * 100.0 / 100.0) - 16.0

end Color

/-! ## Lightness in units -/

/-- The companding function, in units. -/
def Lab.compandUnits? (t : ℕ) : Option ℕ :=
  if unitsOf ((6.0 / 29.0) * (6.0 / 29.0) * (6.0 / 29.0)) < t then
    powerUnits? t ⟨false, 11184811, -25⟩
  else do
    let quotient ← rounded? (t <<< 149) (unitsOf (3.0 * (6.0 / 29.0) * (6.0 / 29.0)))
    rounded? (quotient + unitsOf (4.0 / 29.0)) 1

theorem Lab.isUnits_compand {t : Float32} {a u : ℕ} (ht : IsUnits t a)
    (known : compandUnits? a = some u) : IsUnits (compand t) u := by
  have constants : IsUnits ((6.0 / 29.0) * (6.0 / 29.0) * (6.0 / 29.0))
        (unitsOf ((6.0 / 29.0) * (6.0 / 29.0) * (6.0 / 29.0))) ∧
      IsUnits (3.0 * (6.0 / 29.0) * (6.0 / 29.0)) (unitsOf (3.0 * (6.0 / 29.0) * (6.0 / 29.0))) ∧
      IsUnits (4.0 / 29.0) (unitsOf (4.0 / 29.0)) := by decide +kernel
  obtain ⟨threshold, slope, offset⟩ := constants
  have third : Decimal.Binary.ofFloat32? (1.0 / 3.0) = some ⟨false, 11184811, -25⟩ := by
    decide +kernel
  rw [compandUnits?] at known
  rw [compand]
  split at known
  · rename_i above
    rw [if_pos ((threshold.lt_iff ht).mpr above)]
    exact ht.power third known
  · rename_i below
    obtain ⟨quotient, hquotient, known⟩ := Option.bind_eq_some_iff.mp known
    rw [if_neg fun above => below ((threshold.lt_iff ht).mp above)]
    exact (ht.div slope hquotient).add offset known

namespace Color

/-- The lightness of three channels in linear light, in units. -/
def lightnessUnits? (r g b : ℕ) : Option ℕ := do
  let red ← rounded? (r * unitsOf 0.2126729) (1 <<< 149)
  let green ← rounded? (g * unitsOf 0.7151522) (1 <<< 149)
  let blue ← rounded? (b * unitsOf 0.0721750) (1 <<< 149)
  let pair ← rounded? (red + green) 1
  let sum ← rounded? (pair + blue) 1
  let scaled ← rounded? (sum * unitsOf 100.0) (1 <<< 149)
  let t ← rounded? (scaled <<< 149) (unitsOf 100.0)
  let root ← Lab.compandUnits? t
  let raised ← rounded? (unitsOf 116.0 * root) (1 <<< 149)
  if unitsOf 16.0 ≤ raised then rounded? (raised - unitsOf 16.0) 1 else none

theorem isUnits_lightness {r g b : Float32} {x y z u : ℕ} (hr : IsUnits r x) (hg : IsUnits g y)
    (hb : IsUnits b z) (known : lightnessUnits? x y z = some u) : IsUnits (lightness r g b) u := by
  have weights : IsUnits 0.2126729 (unitsOf 0.2126729) ∧ IsUnits 0.7151522 (unitsOf 0.7151522) ∧
      IsUnits 0.0721750 (unitsOf 0.0721750) := by decide +kernel
  have factors : IsUnits 100.0 (unitsOf 100.0) ∧ IsUnits 116.0 (unitsOf 116.0) ∧
      IsUnits 16.0 (unitsOf 16.0) := by decide +kernel
  obtain ⟨wr, wg, wb⟩ := weights
  obtain ⟨percent, slope, offset⟩ := factors
  rw [lightnessUnits?] at known
  obtain ⟨red, hred, known⟩ := Option.bind_eq_some_iff.mp known
  obtain ⟨green, hgreen, known⟩ := Option.bind_eq_some_iff.mp known
  obtain ⟨blue, hblue, known⟩ := Option.bind_eq_some_iff.mp known
  obtain ⟨pair, hpair, known⟩ := Option.bind_eq_some_iff.mp known
  obtain ⟨sum, hsum, known⟩ := Option.bind_eq_some_iff.mp known
  obtain ⟨scaled, hscaled, known⟩ := Option.bind_eq_some_iff.mp known
  obtain ⟨t, ht, known⟩ := Option.bind_eq_some_iff.mp known
  obtain ⟨root, hroot, known⟩ := Option.bind_eq_some_iff.mp known
  obtain ⟨raised, hraised, known⟩ := Option.bind_eq_some_iff.mp known
  split at known
  · have whole := ((((hr.mul wr hred).add (hg.mul wg hgreen) hpair).add (hb.mul wb hblue) hsum).mul
      percent hscaled).div percent ht
    exact (slope.mul (Lab.isUnits_compand whole hroot) hraised).sub offset ‹_› known
  · cases known

end Color

namespace Palette

/-! ## Keys -/

/-- What tells an entry from others: the three bytes that its digits are read as, and its lightness
in steps. -/
structure Key where
  bytes : ℕ × ℕ × ℕ
  steps : ℕ

/-- The bytes of six digits. -/
def bytesOf? : List Char → Option (ℕ × ℕ × ℕ)
  | [r1, r0, g1, g0, b1, b0] => do
    let r ← Color.pairValue? r1 r0
    let g ← Color.pairValue? g1 g0
    let b ← Color.pairValue? b1 b0
    return (r, g, b)
  | _ => none

/-- The bytes of six digits after a hash sign. -/
def bytes? (hex : String) : Option (ℕ × ℕ × ℕ) :=
  match hex.toList with
  | '#' :: digits => bytesOf? digits
  | _ => none

/-- The key of six digits after a hash sign. -/
def key? (hex : String) : Option Key := do
  let (r, g, b) ← bytes? hex
  let r' ← Color.linearChannels[r]?
  let g' ← Color.linearChannels[g]?
  let b' ← Color.linearChannels[b]?
  let n ← steps? (Color.lightness r' g' b').toModel.unpack
  return ⟨(r, g, b), n⟩

/-- The key of an entry. -/
def Entry.key? (e : Entry) : Option Key :=
  Palette.key? e.hex

/-! ## Keys in units -/

/-- The digits of the entries of a palette, in order. -/
def digits : Palette → List String
  | tailwind => "000000" :: "ffffff" :: families.flatMap (·.2)
  | material => materialColors.map (·.2)
  | swiftUI => systemColors.map (·.2)

theorem map_hex_entries (p : Palette) : p.entries.map (·.hex) = p.digits.map ("#" ++ ·) := by
  cases p with
  | tailwind =>
      have shaded : ∀ family ∈ families, (familyEntries family).map (·.hex) =
          family.2.map ("#" ++ ·) := by
        intro family listed
        have full : ∀ family ∈ families, family.2.length ≤ shades.length := by decide
        refine List.ext_getElem ?_ fun i _ _ => ?_
        · simp only [familyEntries, List.length_map, List.length_zipWith,
            Nat.min_eq_right (full family listed)]
        · simp only [familyEntries, List.getElem_map, List.getElem_zipWith, entry]
      rw [entries, digits, List.map_cons, List.map_cons, List.map_cons, List.map_cons,
        List.map_flatMap, List.map_flatMap, List.flatMap_congr shaded]
      rfl
  | material => simp only [entries, digits, List.map_map, Function.comp_def, entry]
  | swiftUI => simp only [entries, digits, List.map_map, Function.comp_def, entry]

/-- All bytes in linear light, in units, by their digits. -/
def byteUnits : List (List (Option ℕ)) :=
  (List.range 16).map fun high => (List.range 16).map fun low => Color.byteUnits? (16 * high + low)

/-- The linear light of a byte, looked up. -/
def unitsOfByte? (n : ℕ) : Option ℕ :=
  (byteUnits[n / 16]?.bind fun row => row[n % 16]?).join

theorem linearChannels_of_unitsOfByte? {n u : ℕ} (known : unitsOfByte? n = some u) :
    ∃ x, Color.linearChannels[n]? = some x ∧ IsUnits x u := by
  have high : n / 16 < 16 := by
    by_contra past
    have missing : byteUnits[n / 16]? = none := by
      rw [List.getElem?_eq_none_iff, byteUnits, List.length_map, List.length_range]
      omega
    rw [unitsOfByte?, missing] at known
    cases known
  have value : unitsOfByte? n = Color.byteUnits? n := by
    rw [unitsOfByte?, byteUnits, List.getElem?_map, List.getElem?_range high, Option.map_some,
      Option.bind_some, List.getElem?_map, List.getElem?_range (Nat.mod_lt n (by decide)),
      Option.map_some, Option.join_some, Nat.div_add_mod]
  have small : n < 256 := by omega
  refine ⟨_, ?_, Color.isUnits_linear_channel small (value ▸ known)⟩
  rw [Color.linearChannels, List.getElem?_map, List.getElem?_range small, Option.map_some]

/-- The key of digits, worked out in units. -/
def unitKey? (digits : String) : Option Key := do
  let chars ← Text.asciiChars? digits
  let (r, g, b) ← bytesOf? chars
  let x ← unitsOfByte? r
  let y ← unitsOfByte? g
  let z ← unitsOfByte? b
  let u ← Color.lightnessUnits? x y z
  if u = 0 ∨ 1 <<< 149 ≤ u then some ⟨(r, g, b), u >>> 126⟩ else none

theorem key?_of_unitKey? {digits : String} {k : Key} (known : unitKey? digits = some k) :
    key? ("#" ++ digits) = some k := by
  rw [unitKey?] at known
  obtain ⟨chars, spelled, known⟩ := Option.bind_eq_some_iff.mp known
  obtain ⟨⟨r, g, b⟩, read, known⟩ := Option.bind_eq_some_iff.mp known
  obtain ⟨x, hx, known⟩ := Option.bind_eq_some_iff.mp known
  obtain ⟨y, hy, known⟩ := Option.bind_eq_some_iff.mp known
  obtain ⟨z, hz, known⟩ := Option.bind_eq_some_iff.mp known
  obtain ⟨u, hu, known⟩ := Option.bind_eq_some_iff.mp known
  split at known
  · rename_i size
    obtain ⟨r', red, isRed⟩ := linearChannels_of_unitsOfByte? hx
    obtain ⟨g', green, isGreen⟩ := linearChannels_of_unitsOfByte? hy
    obtain ⟨b', blue, isBlue⟩ := linearChannels_of_unitsOfByte? hz
    have steps := steps?_of_isUnits (Color.isUnits_lightness isRed isGreen isBlue hu) size
    have marked : ("#" ++ digits).toList = '#' :: chars := by
      rw [String.toList_append, Text.toList_of_asciiChars? spelled]
      rfl
    have bytes : bytes? ("#" ++ digits) = some (r, g, b) := by
      rw [bytes?, marked]
      exact read
    rw [← known, key?, bytes, Option.bind_eq_bind, Option.bind_some]
    dsimp only
    rw [red, green, blue]
    simp only [Option.bind_eq_bind, Option.bind_some, steps, Option.pure_def]
  · cases known

/-- Whether two keys have the same bytes if they have the same lightness. -/
def Key.agrees (k k' : Key) : Bool :=
  bif Nat.beq k.steps k'.steps then k.bytes == k'.bytes else true

/-- Whether all keys are known and agree with each other.  Keys are only compared if the given
number of bits are the same in their lightnesses. -/
def agree : ℕ → List (Option Key) → Bool
  | 0, keys => keys.all fun key => key.any fun k => keys.all fun other => other.all k.agrees
  | bits + 1, keys =>
    -- The lowest bits are zero in large lightnesses.
    let odd (key : Option Key) : Bool := key.any fun k => k.steps.testBit (bits + 14)
    agree bits (keys.filter odd) && agree bits (keys.filter fun key => !odd key)

/-- Keys of the same lightness are never parted. -/
theorem bytes_eq_of_agree {bits : ℕ} {keys : List (Option Key)} (agrees : agree bits keys = true) :
    ∀ key ∈ keys, ∃ k, key = some k ∧
      ∀ k', some k' ∈ keys → k.steps = k'.steps → k.bytes = k'.bytes := by
  fun_induction agree bits keys with
  | case1 keys =>
      intro key member
      have own := List.all_eq_true.mp agrees key member
      obtain ⟨k, rfl, others⟩ := (Option.any_eq_true _ _).mp own
      refine ⟨k, rfl, fun k' member' same => ?_⟩
      have pair := List.all_eq_true.mp others (some k') member'
      rw [Option.all_some, Key.agrees, same, Nat.beq_refl, cond_true, beq_iff_eq] at pair
      exact pair
  | case2 bits keys odd ones zeros =>
      rw [Bool.and_eq_true] at agrees
      intro key member
      cases side : odd key with
      | true =>
          obtain ⟨k, rfl, others⟩ := ones agrees.1 key (List.mem_filter.mpr ⟨member, side⟩)
          refine ⟨k, rfl, fun k' member' same => others k' (List.mem_filter.mpr ⟨member', ?_⟩) same⟩
          rw [← side]
          simp only [odd, Option.any_some, same]
      | false =>
          have other : (!odd key) = true := by rw [side, Bool.not_false]
          obtain ⟨k, rfl, others⟩ := zeros agrees.2 key (List.mem_filter.mpr ⟨member, other⟩)
          refine ⟨k, rfl, fun k' member' same => others k' (List.mem_filter.mpr ⟨member', ?_⟩) same⟩
          rw [← other]
          simp only [odd, Option.any_some, same]

theorem agree_unitKeys (p : Palette) : agree 5 (p.digits.map unitKey?) = true := by
  cases p <;> decide +kernel

theorem map_key?_entries (p : Palette) :
    p.entries.map Entry.key? = p.digits.map unitKey? := by
  have hexes := congrArg (List.map key?) (map_hex_entries p)
  rw [List.map_map, List.map_map] at hexes
  refine hexes.trans (List.map_congr_left fun d member => ?_)
  obtain ⟨k, known, -⟩ := bytes_eq_of_agree (agree_unitKeys p) _ (List.mem_map_of_mem member)
  rw [known]
  exact key?_of_unitKey? known

/-- Every entry has a key, and entries of the same lightness have the same bytes. -/
theorem entries_apart (p : Palette) : ∀ e ∈ p.entries, ∃ k, e.key? = some k ∧
    ∀ e' ∈ p.entries, ∀ k', e'.key? = some k' → k.steps = k'.steps → k.bytes = k'.bytes := by
  have listed : ∀ e ∈ p.entries, e.key? ∈ p.digits.map unitKey? :=
    fun e member => map_key?_entries p ▸ List.mem_map_of_mem member
  intro e member
  obtain ⟨k, known, apart⟩ := bytes_eq_of_agree (agree_unitKeys p) _ (listed e member)
  exact ⟨k, known, fun e' member' k' known' => apart k' (known' ▸ listed e' member')⟩

/-- What the key of an entry says of it. -/
theorem Entry.key?_eq_some {e : Entry} {k : Key} (known : e.key? = some k) :
    ∃ r g b, k.bytes = (r, g, b) ∧ bytes? e.hex = some (r, g, b) ∧ r < 256 ∧ g < 256 ∧ b < 256 ∧
      steps? (Color.ofBytes r g b).lab.l.toModel.unpack = some k.steps := by
  rw [Entry.key?, Palette.key?] at known
  obtain ⟨⟨r, g, b⟩, read, known⟩ := Option.bind_eq_some_iff.mp known
  obtain ⟨r', red, known⟩ := Option.bind_eq_some_iff.mp known
  obtain ⟨g', green, known⟩ := Option.bind_eq_some_iff.mp known
  obtain ⟨b', blue, known⟩ := Option.bind_eq_some_iff.mp known
  obtain ⟨n, steps, made⟩ := Option.bind_eq_some_iff.mp known
  obtain rfl := Option.some.inj made
  obtain ⟨hr, rfl⟩ := Color.linearChannels_getElem? red
  obtain ⟨hg, rfl⟩ := Color.linearChannels_getElem? green
  obtain ⟨hb, rfl⟩ := Color.linearChannels_getElem? blue
  exact ⟨r, g, b, rfl, read, hr, hg, hb, steps⟩

theorem ofDigits?_of_bytesOf? {chars : List Char} {r g b : ℕ}
    (read : bytesOf? chars = some (r, g, b)) :
    chars.dropWhile (· == '#') = chars ∧ Color.ofDigits? chars = some (Color.ofBytes r g b) := by
  unfold bytesOf? at read
  split at read
  · rename_i r1 r0 g1 g0 b1 b0
    obtain ⟨r', red, read⟩ := Option.bind_eq_some_iff.mp read
    obtain ⟨g', green, read⟩ := Option.bind_eq_some_iff.mp read
    obtain ⟨b', blue, read⟩ := Option.bind_eq_some_iff.mp read
    obtain ⟨⟩ := Option.some.inj read
    have digit : r1 ≠ '#' := by
      rintro rfl
      have none : Color.pairValue? '#' r0 = none := rfl
      rw [none] at red
      cases red
    refine ⟨List.dropWhile_cons_of_neg (by simp [digit]), ?_⟩
    · rw [Color.ofDigits?, red, green, blue]
      rfl
  · cases read

theorem ofHex?_of_bytes? {hex : String} {r g b : ℕ} (read : bytes? hex = some (r, g, b)) :
    Color.ofHex? hex = some (Color.ofBytes r g b) := by
  rw [bytes?] at read
  split at read
  · rename_i chars marked
    obtain ⟨digits, value⟩ := ofDigits?_of_bytesOf? read
    rw [Color.ofHex?, marked, List.dropWhile_cons_of_pos (by decide), digits, value]
  · cases read

/-! ## Swatches -/

theorem swatches_eq (p : Palette) : p.swatches = p.entries.filterMap swatch? := by
  cases p <;> rfl

/-- A swatch of a palette has a key. -/
structure Swatch.Keyed (s : Swatch) (k : Key) : Prop where
  lab : s.lab = s.color.lab
  read : Color.ofHex? s.entry.hex = some s.color
  color : ∃ r g b, k.bytes = (r, g, b) ∧ r < 256 ∧ g < 256 ∧ b < 256 ∧ s.color = Color.ofBytes r g b
  steps : steps? s.lab.l.toModel.unpack = some k.steps

theorem exists_keyed {e : Entry} {k : Key} (known : e.key? = some k) :
    ∃ s, swatch? e = some s ∧ s.entry = e ∧ s.Keyed k := by
  obtain ⟨r, g, b, bytes, read, red, green, blue, steps⟩ := Entry.key?_eq_some known
  have color := ofHex?_of_bytes? read
  refine ⟨⟨e, Color.ofBytes r g b, (Color.ofBytes r g b).lab⟩, ?_, rfl, rfl, color, ?_, steps⟩
  · rw [swatch?, color]
    rfl
  · exact ⟨r, g, b, bytes, red, green, blue, rfl⟩

theorem exists_key_of_mem {p : Palette} {s : Swatch} (member : s ∈ p.swatches) :
    ∃ k, s.Keyed k ∧ ∃ e ∈ p.entries, e.key? = some k := by
  rw [swatches_eq] at member
  obtain ⟨e, listed, made⟩ := List.mem_filterMap.mp member
  obtain ⟨k, known, -⟩ := entries_apart p e listed
  obtain ⟨s', made', -, keyed⟩ := exists_keyed known
  obtain rfl := Option.some.inj (made.symm.trans made')
  exact ⟨k, keyed, e, listed, known⟩

/-- All entries take part in the matching, in their order. -/
theorem map_entry_swatches (p : Palette) : p.swatches.map (·.entry) = p.entries := by
  rw [swatches_eq, List.map_filterMap]
  refine (List.filterMap_congr fun e listed => ?_).trans List.filterMap_some
  obtain ⟨k, known, -⟩ := entries_apart p e listed
  obtain ⟨s, made, same, -⟩ := exists_keyed known
  rw [made, Option.map_some, same]

theorem Swatch.Keyed.bounded {s : Swatch} {k : Key} (keyed : s.Keyed k) : s.lab.Bounded := by
  obtain ⟨r, g, b, -, red, green, blue, color⟩ := keyed.color
  rw [keyed.lab, color]
  exact Color.bounded_lab_ofBytes red green blue

/-- Entries that are different colors are apart. -/
theorem isPositive_distance {p : Palette} {s t : Swatch} (hs : s ∈ p.swatches)
    (ht : t ∈ p.swatches) (differ : s.color ≠ t.color) : IsPositive (s.lab.distance t.lab) := by
  obtain ⟨k, keyed, e, listed, known⟩ := exists_key_of_mem hs
  obtain ⟨k', keyed', e', listed', known'⟩ := exists_key_of_mem ht
  refine Lab.isPositive_distance keyed.bounded keyed'.bounded keyed.steps keyed'.steps
    fun same => differ ?_
  obtain ⟨own, found, apart⟩ := entries_apart p e listed
  obtain rfl := Option.some.inj (known.symm.trans found)
  have bytes := apart e' listed' k' known' same
  obtain ⟨r, g, b, read, -, -, -, color⟩ := keyed.color
  obtain ⟨r', g', b', read', -, -, -, color'⟩ := keyed'.color
  obtain ⟨rfl, rfl, rfl⟩ : r = r' ∧ g = g' ∧ b = b' := by
    rw [read, read'] at bytes
    simpa using bytes
  rw [color, color']

end Palette

end Handoff
