/-!
# Rounding a quotient

Every number the library prints or snaps is a quotient of naturals that goes to a
nearby natural.  `roundDiv` is that one step, with the direction of a tie as an
argument: printing sends a tie to the even neighbour, snapping sends it away from
zero.

Main statements: `two_mul_roundDiv_le` and `le_two_mul_roundDiv`, the result is within
half a unit of the quotient.
-/

namespace Handoff.Decimal

/-- Where a quotient goes that lies halfway between two naturals. -/
inductive Tie where
  | toEven
  | awayFromZero
deriving DecidableEq, Repr

/-- Whether `num / den` rounds to the natural above its whole part. -/
def roundsUp (tie : Tie) (num den : Nat) : Bool :=
  let twice := 2 * (num % den)
  if twice = den then
    match tie with
    | .awayFromZero => true
    | .toEven => num / den % 2 == 1
  else decide (den < twice)

/-- The natural nearest to `num / den`. -/
def roundDiv (tie : Tie) (num den : Nat) : Nat :=
  num / den + (roundsUp tie num den).toNat

theorem roundsUp_le_twice {tie : Tie} {num den : Nat} (h : roundsUp tie num den = true) :
    den ≤ 2 * (num % den) := by
  simp only [roundsUp] at h
  split at h
  · omega
  · exact Nat.le_of_lt (of_decide_eq_true h)

theorem twice_le_of_not_roundsUp {tie : Tie} {num den : Nat}
    (h : roundsUp tie num den = false) : 2 * (num % den) ≤ den := by
  simp only [roundsUp] at h
  split at h
  · omega
  · exact Nat.le_of_not_lt (of_decide_eq_false h)

/-- The result exceeds the quotient by at most one half. -/
theorem two_mul_roundDiv_le (tie : Tie) (num den : Nat) :
    2 * (roundDiv tie num den * den) ≤ 2 * num + den := by
  have hsplit := Nat.div_add_mod' num den
  cases hup : roundsUp tie num den with
  | true =>
    have := roundsUp_le_twice hup
    simp only [roundDiv, hup, Bool.toNat_true, Nat.add_mul]
    omega
  | false =>
    simp only [roundDiv, hup, Bool.toNat_false, Nat.add_mul]
    omega

/-- The result falls short of the quotient by at most one half. -/
theorem le_two_mul_roundDiv (tie : Tie) (num den : Nat) (hden : 0 < den) :
    2 * num ≤ 2 * (roundDiv tie num den * den) + den := by
  have hsplit := Nat.div_add_mod' num den
  have hlt := Nat.mod_lt num hden
  cases hup : roundsUp tie num den with
  | true =>
    simp only [roundDiv, hup, Bool.toNat_true, Nat.add_mul]
    omega
  | false =>
    have := twice_le_of_not_roundsUp hup
    simp only [roundDiv, hup, Bool.toNat_false, Nat.add_mul]
    omega

/-- A quotient without remainder is its own nearest natural. -/
theorem roundDiv_mul_self (tie : Tie) (n den : Nat) (hden : 0 < den) :
    roundDiv tie (n * den) den = n := by
  simp [roundDiv, roundsUp, Nat.mul_div_cancel n hden, Nat.ne_of_lt hden]

end Handoff.Decimal
