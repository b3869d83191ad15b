/-!
# Hexadecimal digits

`hexDigit` and `hexPair` write digits and bytes in lower case, `hexValue?` reads a digit of
either case.

Main statement: `hexValue?_hexDigit`, a written digit reads back.
-/

namespace Handoff.Text

/-- The digit of a number below sixteen. -/
def hexDigit (n : Nat) : Char := Nat.digitChar n

/-- The two digits of a byte. -/
def hexPair (byte : Nat) : List Char :=
  [hexDigit (byte / 16), hexDigit (byte % 16)]

/-- The value of a digit of either case. -/
def hexValue? (c : Char) : Option Nat :=
  if '0' ≤ c ∧ c ≤ '9' then some (c.toNat - '0'.toNat)
  else if 'a' ≤ c ∧ c ≤ 'f' then some (c.toNat - 'a'.toNat + 10)
  else if 'A' ≤ c ∧ c ≤ 'F' then some (c.toNat - 'A'.toNat + 10)
  else none

theorem hexValue?_hexDigit {n : Nat} (h : n < 16) : hexValue? (hexDigit n) = some n :=
  (by decide : ∀ k : Fin 16, hexValue? (hexDigit k) = some k.val) ⟨n, h⟩

end Handoff.Text
