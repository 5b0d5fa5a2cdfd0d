import Mathlib.Data.List.Basic

/-! Texts of UTF-16 code units, and the characters that an encoder to UTF-8 makes of
them: every surrogate without its partner is replaced by one and the same character, so
that texts which differ in such units alone are encoded alike. -/

namespace Utf16

def isHigh (unit : UInt16) : Bool := 0xD800 ≤ unit.toNat && unit.toNat < 0xDC00

def isLow (unit : UInt16) : Bool := 0xDC00 ≤ unit.toNat && unit.toNat < 0xE000

def replacement : Char := Char.ofNat 0xFFFD

def character (unit : UInt16) : Char :=
  if isHigh unit || isLow unit then replacement else Char.ofNat unit.toNat

def pair (high low : UInt16) : Char :=
  Char.ofNat (0x10000 + (high.toNat - 0xD800) * 0x400 + (low.toNat - 0xDC00))

def decode : List UInt16 → List Char
  | [] => []
  | [unit] => [character unit]
  | first :: second :: rest =>
      if isHigh first && isLow second then pair first second :: decode rest
      else character first :: decode (second :: rest)

section Characters

variable {unit high low : UInt16}

end Characters

section Texts

variable {unit : UInt16} {units : List UInt16}

theorem decode_cons (first : isHigh unit = false) (after : List UInt16) :
    decode (unit :: after) = character unit :: decode after := by
  cases after with
  | nil => rfl
  | cons next after => simp [decode, first]

theorem decode_append (plain : (isHigh unit || isLow unit) = false) (before after : List UInt16) :
    decode (before ++ unit :: after) = decode before ++ character unit :: decode after := by
  obtain ⟨first, second⟩ := Bool.or_eq_false_iff.mp plain
  induction before using decode.induct with
  | case1 => exact decode_cons first after
  | case2 single =>
      have apart : ¬(isHigh single && isLow unit) = true := by simp [second]
      change decode (single :: unit :: after) = character single :: character unit :: decode after
      rw [decode, if_neg apart, decode_cons first]
  | case3 high low rest paired ih =>
      rw [List.cons_append, List.cons_append, decode, if_pos paired, decode, if_pos paired, ih]
      rfl
  | case4 high low rest unpaired ih =>
      rw [List.cons_append, List.cons_append, decode, if_neg unpaired, decode, if_neg unpaired]
      exact congrArg (character high :: ·) ih

end Texts

end Utf16
