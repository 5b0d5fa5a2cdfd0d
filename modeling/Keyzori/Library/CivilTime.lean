import Mathlib.Algebra.Group.Nat.Defs
import Mathlib.Data.Nat.Basic
import Mathlib.Tactic.SplitIfs

/-! Clock readings of the Gregorian calendar and the milliseconds since 1970 that they
stand for, and numbers as decimal digits. A year is counted from its March on, so that
the leap day is the last. -/

namespace CivilTime

/-- A reading of a clock without a zone. -/
structure Clock where
  year : Int
  month : Nat
  day : Nat
  hour : Nat
  minute : Nat
  second : Nat
  millisecond : Nat
  deriving DecidableEq, Repr

def Clock.inYear (clock : Clock) (year : Int) : Clock := { clock with year }

/-- Days from the first of March of the year zero to the first of March of a year. -/
def marchDays (year : Int) : Int := 365 * year + year / 4 - year / 100 + year / 400

/-- Days from a first of March to the first of the month that comes so many months later. -/
def monthDays (months : Nat) : Nat := (153 * months + 2) / 5

def dayNumber (year : Int) (month day : Nat) : Int :=
  marchDays (if month ≤ 2 then year - 1 else year) + monthDays (if month ≤ 2 then month + 9 else month - 3) +
    day - 1 - 719468

def Clock.instant (clock : Clock) : Int :=
  dayNumber clock.year clock.month clock.day * 86400000 + clock.hour * 3600000 + clock.minute * 60000 +
    clock.second * 1000 + clock.millisecond

/-- The year from March on, and the day in it. -/
structure MarchDay where
  year : Int
  day : Nat

def marchDay (days : Int) : MarchDay :=
  let inEra := (days % 146097).toNat
  let century := min 3 (inEra / 36524)
  let inCentury := inEra - 36524 * century
  let inPeriod := inCentury % 1461
  let year := min 3 (inPeriod / 365)
  ⟨400 * (days / 146097) + (100 * century + 4 * (inCentury / 1461) + year : Nat), inPeriod - 365 * year⟩

def monthOf (day : Nat) : Nat := (5 * day + 2) / 153

def clockOf (instant : Int) : Clock :=
  let date := marchDay (instant / 86400000 + 719468)
  let months := monthOf date.day
  let inDay := (instant % 86400000).toNat
  { year := if months < 10 then date.year else date.year + 1
    month := if months < 10 then months + 3 else months - 9
    day := date.day - monthDays months + 1
    hour := inDay / 3600000
    minute := inDay / 60000 % 60
    second := inDay / 1000 % 60
    millisecond := inDay % 1000 }

theorem marchDays_parts (era : Int) {century period year : Nat} (centuries : century ≤ 3) (periods : period ≤ 24)
    (years : year ≤ 3) : marchDays (400 * era + (100 * century + 4 * period + year : Nat)) =
      146097 * era + 36524 * century + 1461 * period + 365 * year := by
  have fours : (400 * era + (100 * century + 4 * period + year : Nat)) / 4 =
      100 * era + 25 * century + period := by omega
  have hundreds : (400 * era + (100 * century + 4 * period + year : Nat)) / 100 = 4 * era + century := by omega
  have eras : (400 * era + (100 * century + 4 * period + year : Nat)) / 400 = era := by omega
  rw [marchDays, fours, hundreds, eras]
  push_cast
  omega

theorem era_parts {inEra : Nat} (short : inEra < 146097) :
    let century := min 3 (inEra / 36524)
    let inCentury := inEra - 36524 * century
    let year := min 3 (inCentury % 1461 / 365)
    inCentury / 1461 ≤ 24 ∧ inCentury % 1461 - 365 * year ≤ 365 ∧
      36524 * century + 1461 * (inCentury / 1461) + 365 * year + (inCentury % 1461 - 365 * year) = inEra := by
  intro century inCentury year
  have centuries : 36524 * century ≤ inEra ∧ inEra - 36524 * century ≤ 36524 := by omega
  have periods : inCentury ≤ 36524 := centuries.2
  have years : 365 * year ≤ inCentury % 1461 ∧ inCentury % 1461 - 365 * year ≤ 365 := by omega
  have whole := Nat.div_add_mod inCentury 1461
  have rest : inCentury = inEra - 36524 * century := rfl
  omega

theorem marchDay_days (days : Int) : marchDays (marchDay days).year + (marchDay days).day = days := by
  have short : (days % 146097).toNat < 146097 := by omega
  have inEra : ((days % 146097).toNat : Int) = days % 146097 := Int.toNat_of_nonneg (Int.emod_nonneg _ (by decide))
  have whole : 146097 * (days / 146097) + days % 146097 = days := Int.mul_ediv_add_emod days 146097
  obtain ⟨periods, -, parts⟩ := era_parts short
  simp only [marchDay]
  rw [marchDays_parts _ (Nat.min_le_left _ _) periods (Nat.min_le_left _ _)]
  omega

theorem marchDay_bound (days : Int) : (marchDay days).day ≤ 365 := by
  have short : (days % 146097).toNat < 146097 := by omega
  exact (era_parts short).2.1

theorem monthOf_bound {day : Nat} (short : day ≤ 365) : monthOf day ≤ 11 := by
  unfold monthOf
  omega

theorem monthDays_monthOf (day : Nat) : monthDays (monthOf day) ≤ day := by
  unfold monthDays monthOf
  omega

theorem day_short (day : Nat) : day - monthDays (monthOf day) ≤ 30 := by
  unfold monthDays monthOf
  omega

theorem dayNumber_march (year : Int) {months : Nat} (bound : months ≤ 11) (day : Nat) :
    dayNumber (if months < 10 then year else year + 1) (if months < 10 then months + 3 else months - 9) day =
      marchDays year + monthDays months + day - 1 - 719468 := by
  by_cases early : months < 10
  · have late : ¬months + 3 ≤ 2 := by omega
    rw [if_pos early, if_pos early, dayNumber, if_neg late, if_neg late, Nat.add_sub_cancel]
  · have soon : months - 9 ≤ 2 := by omega
    have back : months - 9 + 9 = months := by omega
    rw [if_neg early, if_neg early, dayNumber, if_pos soon, if_pos soon, back, Int.add_sub_cancel]

theorem time_parts (inDay : Nat) : inDay / 3600000 * 3600000 + inDay / 60000 % 60 * 60000 +
    inDay / 1000 % 60 * 1000 + inDay % 1000 = inDay := by
  omega

theorem clockOf_instant (instant : Int) : (clockOf instant).instant = instant := by
  have days := marchDay_days (instant / 86400000 + 719468)
  have start := monthDays_monthOf (marchDay (instant / 86400000 + 719468)).day
  have time : ((instant % 86400000).toNat : Int) = instant % 86400000 :=
    Int.toNat_of_nonneg (Int.emod_nonneg _ (by decide))
  have whole : instant / 86400000 * 86400000 + instant % 86400000 = instant := Int.ediv_mul_add_emod instant 86400000
  have parts := time_parts (instant % 86400000).toNat
  simp only [Clock.instant, clockOf]
  rw [dayNumber_march _ (monthOf_bound (marchDay_bound _))]
  omega

structure Clock.Valid (clock : Clock) : Prop where
  month : 1 ≤ clock.month ∧ clock.month ≤ 12
  day : 1 ≤ clock.day ∧ clock.day ≤ 31
  hour : clock.hour < 24
  minute : clock.minute < 60
  second : clock.second < 60
  millisecond : clock.millisecond < 1000

theorem clockOf_valid (instant : Int) : (clockOf instant).Valid := by
  have months := monthOf_bound (marchDay_bound (instant / 86400000 + 719468))
  have short := day_short (marchDay (instant / 86400000 + 719468)).day
  have time : (instant % 86400000).toNat < 86400000 := by omega
  constructor <;> simp only [clockOf]
  · split <;> omega
  · omega
  all_goals omega

theorem year_bound {instant : Int} (range : instant.natAbs ≤ 8640000000000000) :
    (clockOf instant).year.natAbs < 999999 := by
  have date : ∀ days : Int, days.natAbs ≤ 101000000 → (marchDay days).year.natAbs < 900000 := by
    intro days bound
    have short : (days % 146097).toNat < 146097 := by omega
    obtain ⟨periods, -, -⟩ := era_parts short
    simp only [marchDay]
    omega
  have bound := date (instant / 86400000 + 719468) (by omega)
  simp only [clockOf]
  split <;> omega

theorem marchDays_grow {earlier later : Int} (before : earlier ≤ later) :
    marchDays earlier + 365 * (later - earlier) ≤ marchDays later := by
  have step : ∀ year, marchDays year + 365 ≤ marchDays (year + 1) := by
    intro year
    unfold marchDays
    omega
  obtain ⟨years, rfl⟩ := Int.le.dest before
  clear before
  induction years with
  | zero => simp
  | succ years grown =>
      have next := step (earlier + years)
      have count : earlier + ((years + 1 : Nat) : Int) = earlier + years + 1 := by omega
      rw [count]
      omega

theorem dayNumber_years {earlier later : Int} (before : earlier < later) (month day : Nat) :
    dayNumber earlier month day + 365 ≤ dayNumber later month day := by
  have same := marchDays_grow (Int.le_of_lt before)
  have shifted := marchDays_grow (Int.sub_le_sub_right (Int.le_of_lt before) 1)
  unfold dayNumber
  split <;> omega

theorem instant_years {clock : Clock} {earlier later : Int} (before : earlier < later) :
    (clock.inYear earlier).instant + 365 * 86400000 ≤ (clock.inYear later).instant := by
  have days := dayNumber_years before clock.month clock.day
  simp only [Clock.instant, Clock.inYear]
  omega

section Digits

def pad : Nat → Nat → List Char
  | 0, _ => []
  | width + 1, number => pad width (number / 10) ++ [(number % 10).digitChar]

def readDigits (width : Nat) (chars : List Char) : Option (Nat × List Char) :=
  if (chars.take width).length = width ∧ (chars.take width).all Char.isDigit then
    some (Nat.ofDigitChars 10 (chars.take width) 0, chars.drop width)
  else none

theorem pad_length (width number : Nat) : (pad width number).length = width := by
  induction width generalizing number with
  | zero => rfl
  | succ width rest => rw [pad, List.length_append, rest, List.length_singleton]

theorem pad_digits (width number : Nat) : ∀ char ∈ pad width number, char.isDigit = true := by
  induction width generalizing number with
  | zero => exact fun char member => absurd member List.not_mem_nil
  | succ width rest =>
      intro char member
      rcases List.mem_append.mp member with earlier | last
      · exact rest _ char earlier
      · rw [List.mem_singleton.mp last, Nat.isDigit_digitChar]
        exact decide_eq_true (Nat.mod_lt _ (by decide))

theorem pad_value {width number : Nat} (small : number < 10 ^ width) :
    Nat.ofDigitChars 10 (pad width number) 0 = number := by
  induction width generalizing number with
  | zero => rw [Nat.lt_one_iff.mp small]; rfl
  | succ width rest =>
      have part : number / 10 < 10 ^ width := by
        rw [Nat.div_lt_iff_lt_mul (by decide), ← Nat.pow_succ]
        exact small
      rw [pad, Nat.ofDigitChars_append, rest part,
        Nat.ofDigitChars_cons_digitChar_of_lt_ten (Nat.mod_lt _ (by decide)), Nat.ofDigitChars_nil]
      exact Nat.div_add_mod number 10

theorem readDigits_pad {width number : Nat} (small : number < 10 ^ width) (rest : List Char) :
    readDigits width (pad width number ++ rest) = some (number, rest) := by
  have front : (pad width number ++ rest).take width = pad width number := List.take_left' (pad_length width number)
  have behind : (pad width number ++ rest).drop width = rest := List.drop_left' (pad_length width number)
  rw [readDigits, front, behind, if_pos ⟨pad_length width number, List.all_eq_true.mpr (pad_digits width number)⟩,
    pad_value small]

theorem digits_end {digits rest : List Char} (numeric : ∀ char ∈ digits, char.isDigit = true)
    (ended : ∀ char ∈ rest.head?, char.isDigit = false) :
    (digits ++ rest).takeWhile Char.isDigit = digits ∧ (digits ++ rest).dropWhile Char.isDigit = rest := by
  rw [List.takeWhile_append_of_pos numeric, List.dropWhile_append_of_pos numeric]
  cases rest with
  | nil => simp
  | cons char chars =>
      have other : char.isDigit = false := ended char rfl
      simp [other]

end Digits

end CivilTime
