import Handoff.Json.Printer
import Handoff.Json.Reader

/-!
Numbers and strings read in front of other text.

A number ends where its text cannot go on (`Stops`), and the reader of numbers takes no notice
of what is behind (`number_append`): it only looks at digits and at the character after them.
A quoted string ends with its quote, because a quote inside is escaped (`string_quoted`).
-/

namespace Handoff.Json

variable {cs left rest : List Char}

/-! ## Numbers in front of other text -/

/-- No number goes on with this text. -/
def Stops (rest : List Char) : Prop :=
  ∀ c ∈ rest.head?, c.isDigit = false ∧ c ≠ '.' ∧ c ≠ 'e' ∧ c ≠ 'E'

theorem digits_append (stop : Stops rest) (cs : List Char) :
    digits (cs ++ rest) = ((digits cs).1, (digits cs).2 ++ rest) := by
  induction cs with
  | nil =>
      cases rest with
      | nil => rfl
      | cons c rest => simp [digits, (stop c rfl).1]
  | cons c cs ih =>
      by_cases digit : c.isDigit = true
      · simp only [digits, Prod.mk.injEq] at ih ⊢
        simp only [List.cons_append, List.takeWhile_cons, List.dropWhile_cons, digit, if_true,
          List.map_cons, ih, and_self]
      · simp [digits, digit]

/-- The sign of an exponent, and what is behind it. -/
def exponentSign : List Char → Bool × List Char
  | '-' :: rest => (true, rest)
  | '+' :: rest => (false, rest)
  | cs => (false, cs)

/-- The digits of an exponent. -/
def exponentDigits (negative : Bool) (cs : List Char) : Option ((Bool × Nat) × List Char) :=
  match digits cs with
  | ([], _) => none
  | (ds, rest) => some ((negative, ds.foldl (fun n d => n * 10 + d) 0), rest)

theorem exponent_eq (cs : List Char) :
    exponent cs = exponentDigits (exponentSign cs).1 (exponentSign cs).2 :=
  rfl

theorem exponentDigits_append {negative : Bool} {e : Bool × Nat} (stop : Stops rest)
    (read : exponentDigits negative cs = some (e, left)) :
    exponentDigits negative (cs ++ rest) = some (e, left ++ rest) := by
  unfold exponentDigits at read ⊢
  rw [digits_append stop]
  generalize digits cs = split at read ⊢
  rcases split with ⟨_ | ⟨d, ds⟩, after⟩
  · cases read
  · cases read
    rfl

theorem exponent_append {e : Bool × Nat} (stop : Stops rest)
    (read : exponent cs = some (e, left)) : exponent (cs ++ rest) = some (e, left ++ rest) := by
  cases cs with
  | nil => cases read
  | cons c cs =>
      have sign : exponentSign (c :: cs ++ rest) =
          ((exponentSign (c :: cs)).1, (exponentSign (c :: cs)).2 ++ rest) := by
        rw [List.cons_append]
        unfold exponentSign
        split <;> simp_all
      rw [exponent_eq, sign]
      exact exponentDigits_append stop read

/-- The digits behind a point, if there is one. -/
def fraction (s : Decimal.Significand) (cs : List Char) :
    Option (Decimal.Significand × Bool × List Char) :=
  match cs with
  | '.' :: rest =>
    match digits rest with
    | ([], _) => none
    | (ds, rest) => some (s.pushFraction ds, true, rest)
  | rest => some (s, false, rest)

/-- The exponent, if there is one, and the number. -/
def power (negative : Bool) (whole : List Nat) (s : Decimal.Significand) (hasFraction : Bool) :
    Step Json := fun cs =>
  match cs with
  | 'e' :: rest | 'E' :: rest => do
    let ((negativeExponent, power), rest) ← exponent rest
    let x ← scaled? s negativeExponent power
    return (signed negative x, rest)
  | rest =>
    if hasFraction then do
      let x ← s.toFloat?
      return (signed negative x, rest)
    else do
      let value ← wholeNumber? negative whole
      return (value, rest)

theorem unsigned_eq (negative : Bool) (cs : List Char) : unsigned negative cs =
    match digits cs with
    | ([], _) => none
    | (0 :: _ :: _, _) => none
    | (whole, rest) =>
      (fraction (Decimal.Significand.pushWhole ⟨0, 0⟩ whole) rest).bind
        fun (s, hasFraction, rest) => power negative whole s hasFraction rest :=
  rfl

theorem fraction_plain {s : Decimal.Significand} (plain : ∀ c ∈ cs.head?, c ≠ '.') :
    fraction s cs = some (s, false, cs) := by
  unfold fraction
  split
  · exact absurd rfl (plain _ rfl)
  · rfl

theorem fraction_append {s t : Decimal.Significand} {b : Bool} (stop : Stops rest)
    (read : fraction s cs = some (t, b, left)) :
    fraction s (cs ++ rest) = some (t, b, left ++ rest) := by
  cases cs with
  | nil =>
      cases read
      rw [List.nil_append, fraction_plain fun c first => (stop c first).2.1]
  | cons c cs =>
      by_cases point : c = '.'
      · subst point
        rw [List.cons_append]
        simp only [fraction] at read ⊢
        rw [digits_append stop]
        generalize digits cs = split at read ⊢
        rcases split with ⟨_ | ⟨d, ds⟩, after⟩
        · cases read
        · cases read
          rfl
      · have plain : ∀ d ∈ (c :: cs).head?, d ≠ '.' := by
          rintro d ⟨rfl⟩
          exact point
        rw [fraction_plain plain] at read
        cases read
        exact fraction_plain (by exact plain)

section

variable {negative : Bool} {whole : List Nat} {s : Decimal.Significand} {hasFraction : Bool}
  {json : Json}

/-- A number without an exponent. -/
def unscaled? (negative : Bool) (whole : List Nat) (s : Decimal.Significand)
    (hasFraction : Bool) : Option Json :=
  if hasFraction then s.toFloat?.map (signed negative) else wholeNumber? negative whole

theorem power_plain (plain : ∀ c ∈ cs.head?, c ≠ 'e' ∧ c ≠ 'E') :
    power negative whole s hasFraction cs =
      (unscaled? negative whole s hasFraction).map (·, cs) := by
  unfold power unscaled?
  split
  · exact absurd rfl (plain _ rfl).1
  · exact absurd rfl (plain _ rfl).2
  · split
    · cases s.toFloat? <;> rfl
    · cases wholeNumber? negative whole <;> rfl

theorem power_append (stop : Stops rest)
    (read : power negative whole s hasFraction cs = some (json, left)) :
    power negative whole s hasFraction (cs ++ rest) = some (json, left ++ rest) := by
  cases cs with
  | nil =>
      rw [power_plain (by simp)] at read
      obtain ⟨value, own, same⟩ := Option.map_eq_some_iff.mp read
      cases same
      rw [List.nil_append, power_plain fun c first => (stop c first).2.2, own]
      rfl
  | cons c cs =>
      by_cases mark : c = 'e' ∨ c = 'E'
      · have scaled : power negative whole s hasFraction ('e' :: cs) = some (json, left) := by
          rcases mark with rfl | rfl <;> exact read
        obtain ⟨⟨⟨n, p⟩, after⟩, parsed, scaled⟩ := Option.bind_eq_some_iff.mp scaled
        obtain ⟨x, fits, same⟩ := Option.bind_eq_some_iff.mp scaled
        cases same
        have again : power negative whole s hasFraction ('e' :: (cs ++ rest)) =
            some (signed negative x, left ++ rest) := by
          refine Option.bind_eq_some_iff.mpr ⟨_, exponent_append stop parsed, ?_⟩
          exact Option.bind_eq_some_iff.mpr ⟨x, fits, rfl⟩
        rcases mark with rfl | rfl <;> exact again
      · have plain : ∀ d ∈ (c :: cs).head?, d ≠ 'e' ∧ d ≠ 'E' := by
          rintro d ⟨rfl⟩
          exact not_or.mp mark
        rw [power_plain plain] at read
        obtain ⟨value, own, same⟩ := Option.map_eq_some_iff.mp read
        cases same
        rw [List.cons_append, power_plain (by exact plain), own]
        rfl

theorem unsigned_append (stop : Stops rest)
    (read : unsigned negative cs = some (json, left)) :
    unsigned negative (cs ++ rest) = some (json, left ++ rest) := by
  rw [unsigned_eq] at read ⊢
  rw [digits_append stop]
  generalize digits cs = split at read ⊢
  rcases split with ⟨whole, after⟩
  have further {s : Decimal.Significand}
      (read : ((fraction s after).bind fun (s, hasFraction, rest) =>
        power negative whole s hasFraction rest) = some (json, left)) :
      ((fraction s (after ++ rest)).bind fun (s, hasFraction, rest) =>
        power negative whole s hasFraction rest) = some (json, left ++ rest) := by
    obtain ⟨_, parsed, scaled⟩ := Option.bind_eq_some_iff.mp read
    exact Option.bind_eq_some_iff.mpr ⟨_, fraction_append stop parsed, power_append stop scaled⟩
  -- A zero in front of further digits is no number.
  rcases whole with _ | ⟨_ | d, _ | ⟨e, ds⟩⟩
  · cases read
  · exact further read
  · cases read
  · exact further read
  · exact further read

/-- What a number begins with. -/
theorem isDigit_of_unsigned {c : Char} (read : unsigned negative (c :: cs) = some (json, left)) :
    c.isDigit = true := by
  cases digit : c.isDigit with
  | true => rfl
  | false =>
      have nothing : digits (c :: cs) = ([], c :: cs) := by simp [digits, digit]
      rw [unsigned_eq, nothing] at read
      cases read

theorem number_plain {c : Char} (plain : c ≠ '-') (cs : List Char) :
    number (c :: cs) = unsigned false (c :: cs) := by
  unfold number
  split
  · rename_i same
    exact absurd (List.cons.inj same).1 plain
  · rfl

theorem number_append (stop : Stops rest) (read : number cs = some (json, left)) :
    number (cs ++ rest) = some (json, left ++ rest) := by
  cases cs with
  | nil => cases read
  | cons c cs =>
      by_cases minus : c = '-'
      · subst minus
        exact unsigned_append stop read
      · rw [number_plain minus] at read
        rw [List.cons_append, number_plain minus]
        exact unsigned_append stop read

/-- A number begins with a digit or a minus sign. -/
theorem head_of_number (read : number cs = some (json, left)) :
    ∃ c tail, cs = c :: tail ∧ (c = '-' ∨ c.isDigit = true) := by
  cases cs with
  | nil => cases read
  | cons c cs =>
      refine ⟨c, cs, rfl, ?_⟩
      by_cases minus : c = '-'
      · exact .inl minus
      · rw [number_plain minus] at read
        exact .inr (isDigit_of_unsigned read)

end

/-! ## Strings -/

theorem hexQuad_hexPair {n : Nat} (control : n < 0x20) (rest : List Char) :
    hexQuad ('0' :: '0' :: (Text.hexPair n ++ rest)) = some (n, rest) := by
  have high := Text.hexValue?_hexDigit (n := n / 16) (by omega)
  have low := Text.hexValue?_hexDigit (n := n % 16) (by omega)
  have zero : Text.hexValue? '0' = some 0 := by decide
  simp only [Text.hexPair, List.cons_append, List.nil_append, hexQuad, zero, high, low]
  simp
  omega

theorem unicodeEscape_hexPair {c : Char} (control : c.toNat < 0x20) (rest : List Char) :
    unicodeEscape ('0' :: '0' :: (Text.hexPair c.toNat ++ rest)) = some (c, rest) := by
  unfold unicodeEscape
  rw [hexQuad_hexPair control]
  simp only [Option.bind_eq_bind, Option.bind_some]
  rw [if_neg (by omega), if_neg (by omega), Char.ofNat_toNat]
  rfl

/-- An escaped character is read as the character. -/
theorem stringBody_escape (c : Char) (fuel : Nat) (acc rest : List Char) :
    stringBody (fuel + 1) acc (escape c ++ rest) = stringBody fuel (c :: acc) rest := by
  unfold escape
  split
  all_goals try rfl
  rename_i quote backslash _ _ _ _ _
  split
  · rename_i control
    show (unicodeEscape ('0' :: '0' :: (Text.hexPair c.toNat ++ rest))).bind _ = _
    rw [unicodeEscape_hexPair control]
    rfl
  · rename_i plain
    rw [List.singleton_append, stringBody]
    · exact if_neg plain
    · exact fun same => quote same
    · exact fun same => backslash same

theorem stringBody_flatMap (cs rest : List Char) : ∀ {fuel : Nat} (acc : List Char),
    cs.length < fuel → stringBody fuel acc (cs.flatMap escape ++ '"' :: rest) =
      some (String.ofList (acc.reverse ++ cs), rest) := by
  induction cs with
  | nil =>
      intro fuel acc room
      obtain ⟨fuel, rfl⟩ := Nat.exists_eq_succ_of_ne_zero (by omega : fuel ≠ 0)
      rw [List.append_nil]
      rfl
  | cons c cs ih =>
      intro fuel acc room
      obtain ⟨fuel, rfl⟩ := Nat.exists_eq_succ_of_ne_zero (by omega : fuel ≠ 0)
      rw [List.flatMap_cons, List.append_assoc, stringBody_escape, ih _ (by simpa using room)]
      simp

theorem toList_quoted (s : String) :
    (quoted s).toList = '"' :: (s.toList.flatMap escape ++ ['"']) := by
  rw [quoted, String.toList_ofList, List.cons_append]

/-- A quoted string is read as the string, after its first quote. -/
theorem string_quoted {s : String} {size : Nat} (room : (quoted s).toList.length ≤ size)
    (rest : List Char) :
    string size (s.toList.flatMap escape ++ '"' :: rest) = some (s, rest) := by
  have short : s.toList.length ≤ (s.toList.flatMap escape).length := by
    have each : ∀ c : Char, 1 ≤ (escape c).length := by
      intro c
      unfold escape
      split
      all_goals try exact Nat.le_add_left _ _
      split <;> simp
    induction s.toList with
    | nil => exact Nat.le_refl 0
    | cons c cs ih =>
        have own := each c
        simp only [List.flatMap_cons, List.length_append, List.length_cons]
        omega
  rw [toList_quoted, List.length_cons, List.length_append] at room
  rw [string, stringBody_flatMap _ _ _ (by omega), List.reverse_nil, List.nil_append,
    String.ofList_toList]

end Handoff.Json
