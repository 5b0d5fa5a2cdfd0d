import Mathlib.Data.Nat.Notation

namespace HexDigits

def hexValue (char : Char) : Option Nat :=
  if '0' ≤ char ∧ char ≤ '9' then some (char.toNat - '0'.toNat)
  else if 'a' ≤ char ∧ char ≤ 'f' then some (char.toNat - 'a'.toNat + 10)
  else if 'A' ≤ char ∧ char ≤ 'F' then some (char.toNat - 'A'.toNat + 10)
  else none

def lowerDigit (char : Char) : Option Nat := (hexValue char).filter fun _ => !char.isUpper

theorem lowerDigit_hex {char : Char} {digit : Nat} (read : lowerDigit char = some digit) :
    hexValue char = some digit := (Option.filter_eq_some_iff.mp read).1

theorem hexValue_digit {digit : Nat} (small : digit < 16) : hexValue digit.digitChar = some digit := by
  have all : ∀ digit < 16, hexValue (Nat.digitChar digit) = some digit := by decide
  exact all digit small

theorem lowerDigit_digit {digit : Nat} (small : digit < 16) : lowerDigit digit.digitChar = some digit := by
  have all : ∀ digit < 16, lowerDigit (Nat.digitChar digit) = some digit := by decide
  exact all digit small

theorem lowerDigit_range {char : Char} (shown : (lowerDigit char).isSome) :
    (48 ≤ char.toNat ∧ char.toNat ≤ 57) ∨ (97 ≤ char.toNat ∧ char.toNat ≤ 102) := by
  obtain ⟨digit, read⟩ := Option.isSome_iff_exists.mp shown
  obtain ⟨value, lower⟩ := Option.filter_eq_some_iff.mp read
  unfold hexValue at value
  have small : char.isUpper ≠ true := by simpa using lower
  simp only [Char.le_def, UInt32.le_iff_toNat_le] at value
  split at value
  · next decimal => exact .inl decimal
  · split at value
    · next letter => exact .inr letter
    · split at value
      · next capital =>
        have most : char.toNat ≤ 70 := capital.2
        have upper : char.isUpper = true := decide_eq_true ⟨capital.1, Nat.le_trans most (by decide)⟩
        exact absurd upper small
      · cases value

end HexDigits
