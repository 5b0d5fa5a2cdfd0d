import Keyzori.Domain.Values
import Keyzori.Library.CivilTime

namespace Keyzori

open CivilTime

structure TimeValue where
  instant : Instant
  range : Int.natAbs instant ≤ 8640000000000000
  deriving DecidableEq

def timeClip (value : Int) : Option Instant := if value.natAbs ≤ 8640000000000000 then some value else none

section Writing

def dateTimeText (year : List Char) (separator : Char) (clock : Clock) (tail : List Char) : List Char :=
  year ++ '-' :: (pad 2 clock.month ++ '-' :: (pad 2 clock.day ++ separator :: (pad 2 clock.hour ++
    ':' :: (pad 2 clock.minute ++ ':' :: (pad 2 clock.second ++ tail)))))

def isoYear (year : Int) : List Char :=
  if 0 ≤ year ∧ year ≤ 9999 then pad 4 year.toNat
  else (if year < 0 then '-' else '+') :: pad 6 year.natAbs

def toISOString (instant : Instant) : String :=
  let clock := clockOf instant
  String.ofList (dateTimeText (isoYear clock.year) 'T' clock ('.' :: (pad 3 clock.millisecond ++ ['Z'])))

/-- At least four digits. The year before the first is the first before Christ. -/
def postgresYear (year : Int) : List Char :=
  let number := (if year > 0 then year else 1 - year).toNat
  pad (if number < 10000 then 4 else if number < 100000 then 5 else 6) number

def postgresFraction (millisecond : Nat) : List Char :=
  if millisecond = 0 then []
  else if millisecond % 100 = 0 then '.' :: pad 1 (millisecond / 100)
  else if millisecond % 10 = 0 then '.' :: pad 2 (millisecond / 10)
  else '.' :: pad 3 millisecond

def postgresText (separator : Char) (instant : Instant) : String :=
  let clock := clockOf instant
  String.ofList (dateTimeText (postgresYear clock.year) separator clock
    (postgresFraction clock.millisecond ++ if clock.year > 0 then [] else " BC".toList))

/-- A `timestamp` cast to `text`. -/
def timestampText (instant : Instant) : String := postgresText ' ' instant

def timestampJson (instant : Instant) : String := postgresText 'T' instant

end Writing

section Reading

/-- The clocks of a zone: how far they are ahead of universal time at a reading they show. -/
structure Zone where
  offset : Int → Int
  bounded : ∀ reading, (offset reading).natAbs < 86400000

/-- The years an engine reads in texts that ECMAScript leaves to it. It takes plain years
before a blank as they are. -/
structure Engine where
  takes : Char → Int → Option Int
  plain : ∀ year, 100 ≤ year → year ≤ 9999 → takes ' ' year = some year

def skip (expected : Char) : List Char → Option (List Char)
  | char :: rest => if char = expected then some rest else none
  | [] => none

/-- A year and whether ECMAScript defines its form: four digits, or a sign and six, but no
minus before zeros. -/
def readYear : List Char → Option ((Int × Bool) × List Char)
  | '+' :: rest => (readDigits 6 rest).map fun read => (((read.1 : Int), true), read.2)
  | '-' :: rest => (readDigits 6 rest).bind fun read =>
      if read.1 = 0 then none else some ((-(read.1 : Int), true), read.2)
  | chars =>
      let digits := chars.takeWhile Char.isDigit
      if 4 ≤ digits.length then
        some (((Nat.ofDigitChars 10 digits 0 : Int), decide (digits.length = 4)), chars.dropWhile Char.isDigit)
      else none

def readSeparator : List Char → Option (Char × List Char)
  | char :: rest => if char = 'T' ∨ char = ' ' then some (char, rest) else none
  | [] => none

def readFraction : List Char → Option (Nat × List Char)
  | '.' :: rest =>
      let digits := rest.takeWhile Char.isDigit
      if 1 ≤ digits.length ∧ digits.length ≤ 3 then
        some (Nat.ofDigitChars 10 digits 0 * 10 ^ (3 - digits.length), rest.dropWhile Char.isDigit)
      else none
  | chars => some (0, chars)

structure Reading where
  clock : Clock
  defined : Bool
  separator : Char
  tail : List Char

def readClock (chars : List Char) : Option Reading := do
  let ((year, defined), rest) ← readYear chars
  let rest ← skip '-' rest
  let (month, rest) ← readDigits 2 rest
  let rest ← skip '-' rest
  let (day, rest) ← readDigits 2 rest
  let (separator, rest) ← readSeparator rest
  let (hour, rest) ← readDigits 2 rest
  let rest ← skip ':' rest
  let (minute, rest) ← readDigits 2 rest
  let rest ← skip ':' rest
  let (second, rest) ← readDigits 2 rest
  let (millisecond, tail) ← readFraction rest
  if 1 ≤ month ∧ month ≤ 12 ∧ 1 ≤ day ∧ day ≤ 31 ∧ hour < 24 ∧ minute < 60 ∧ second < 60 then
    return ⟨⟨year, month, day, hour, minute, second, millisecond⟩, defined, separator, tail⟩
  else none

/-- ECMAScript's format has a `T` and one of its years. Anything else is read by the engine. -/
def Reading.year (engine : Engine) (reading : Reading) : Option Int :=
  if reading.defined ∧ reading.separator = 'T' then some reading.clock.year
  else engine.takes reading.separator reading.clock.year

/-- `new Date` on texts of dates with times: `Z` is universal time, and without it the
reading is one of the zone's clocks. -/
def dateParse (engine : Engine) (zone : Zone) (text : String) : Option Instant := do
  let reading ← readClock text.toList
  let year ← reading.year engine
  let shown := (reading.clock.inYear year).instant
  match reading.tail with
  | ['Z'] => timeClip shown
  | [] => timeClip (shown - zone.offset shown)
  | _ => none

end Reading

section RoundTrip

theorem skip_cons (char : Char) (rest : List Char) : skip char (char :: rest) = some rest := if_pos rfl

theorem readYear_digits {digits : List Char} (rest : List Char) (numeric : ∀ char ∈ digits, char.isDigit = true)
    (long : 4 ≤ digits.length) : readYear (digits ++ '-' :: rest) =
      some (((Nat.ofDigitChars 10 digits 0 : Int), decide (digits.length = 4)), '-' :: rest) := by
  have ended : ∀ char ∈ ('-' :: rest).head?, char.isDigit = false := by simp
  obtain ⟨front, behind⟩ := digits_end numeric ended
  cases digits with
  | nil => simp at long
  | cons char digits =>
      have digit := numeric char List.mem_cons_self
      have plus : char ≠ '+' := by rintro rfl; exact absurd digit (by decide)
      have minus : char ≠ '-' := by rintro rfl; exact absurd digit (by decide)
      rw [List.cons_append] at front behind ⊢
      rw [readYear, front, behind, if_pos long]
      · exact fun rest same => plus (List.cons.inj same).1
      · exact fun rest same => minus (List.cons.inj same).1

theorem readYear_iso {year : Int} (small : year.natAbs < 1000000) (rest : List Char) :
    readYear (isoYear year ++ '-' :: rest) = some ((year, true), '-' :: rest) := by
  unfold isoYear
  split
  next short =>
    have fits : year.toNat < 10 ^ 4 := by omega
    rw [readYear_digits rest (pad_digits _ _) (Nat.le_of_eq (pad_length _ _).symm), pad_value fits,
      Int.toNat_of_nonneg short.1, decide_eq_true (pad_length _ _)]
  next long =>
    split
    next negative =>
      have apart : year.natAbs ≠ 0 := by omega
      have size : -(year.natAbs : Int) = year := by omega
      rw [List.cons_append, readYear, readDigits_pad small, Option.bind_some, if_neg apart, size]
    next positive =>
      rw [List.cons_append, readYear, readDigits_pad small]
      have size : (year.natAbs : Int) = year := by omega
      rw [Option.map_some, size]

theorem readYear_postgres {year : Int} (positive : year > 0) (small : year.natAbs < 1000000) (rest : List Char) :
    readYear (postgresYear year ++ '-' :: rest) = some ((year, decide (year ≤ 9999)), '-' :: rest) := by
  unfold postgresYear
  rw [if_pos positive]
  have fits : year.toNat < 10 ^ (if year.toNat < 10000 then 4 else if year.toNat < 100000 then 5 else 6) := by
    split_ifs <;> omega
  have four : (if year.toNat < 10000 then 4 else if year.toNat < 100000 then 5 else 6) = 4 ↔ year ≤ 9999 := by
    split_ifs <;> omega
  rw [readYear_digits rest (pad_digits _ _), pad_value fits, Int.toNat_of_nonneg (Int.le_of_lt positive), pad_length,
    decide_eq_decide.mpr four]
  rw [pad_length]
  split_ifs <;> omega

theorem readFraction_digits {digits rest : List Char} (numeric : ∀ char ∈ digits, char.isDigit = true)
    (some : 1 ≤ digits.length) (few : digits.length ≤ 3) (ended : ∀ char ∈ rest.head?, char.isDigit = false) :
    readFraction ('.' :: (digits ++ rest)) =
      Option.some (Nat.ofDigitChars 10 digits 0 * 10 ^ (3 - digits.length), rest) := by
  obtain ⟨front, behind⟩ := digits_end numeric ended
  rw [readFraction, front, behind, if_pos ⟨some, few⟩]

theorem readFraction_pad {width number : Nat} (fits : number < 10 ^ width) (some : 1 ≤ width) (few : width ≤ 3)
    {rest : List Char} (ended : ∀ char ∈ rest.head?, char.isDigit = false) :
    readFraction ('.' :: (pad width number ++ rest)) = Option.some (number * 10 ^ (3 - width), rest) := by
  rw [readFraction_digits (pad_digits _ _) _ _ ended, pad_value fits, pad_length]
  · rw [pad_length]; exact some
  · rw [pad_length]; exact few

theorem readFraction_postgres {millisecond : Nat} (short : millisecond < 1000) {rest : List Char}
    (ended : ∀ char ∈ rest.head?, char.isDigit = false) (apart : '.' ∉ rest.head?) :
    readFraction (postgresFraction millisecond ++ rest) = some (millisecond, rest) := by
  unfold postgresFraction
  split_ifs with zero hundreds tens
  · subst zero
    cases rest with
    | nil => rfl
    | cons char rest =>
        have other : char ≠ '.' := by simpa using apart
        rw [List.nil_append, readFraction]
        exact fun rest same => other (List.cons.inj same).1
  · rw [List.cons_append, readFraction_pad (by omega) (by decide) (by decide) ended]
    have whole : millisecond / 100 * 10 ^ (3 - 1) = millisecond := by omega
    rw [whole]
  · rw [List.cons_append, readFraction_pad (by omega) (by decide) (by decide) ended]
    have whole : millisecond / 10 * 10 ^ (3 - 2) = millisecond := by omega
    rw [whole]
  · rw [List.cons_append, readFraction_pad (by omega) (by decide) (by decide) ended]
    rw [Nat.sub_self, Nat.pow_zero, Nat.mul_one]

theorem readClock_text {clock : Clock} (valid : clock.Valid) {year tail rest : List Char} {separator : Char}
    {defined : Bool} (shown : ∀ rest, readYear (year ++ '-' :: rest) = some ((clock.year, defined), '-' :: rest))
    (separated : separator = 'T' ∨ separator = ' ')
    (fraction : readFraction tail = some (clock.millisecond, rest)) :
    readClock (dateTimeText year separator clock tail) = some ⟨clock, defined, separator, rest⟩ := by
  obtain ⟨⟨first, last⟩, ⟨begin, finish⟩, hours, minutes, seconds, -⟩ := valid
  have between : ∀ chars, readSeparator (separator :: chars) = some (separator, chars) := fun _ => if_pos separated
  have month : clock.month < 10 ^ 2 := by omega
  have day : clock.day < 10 ^ 2 := by omega
  have hour : clock.hour < 10 ^ 2 := by omega
  have minute : clock.minute < 10 ^ 2 := by omega
  have second : clock.second < 10 ^ 2 := by omega
  simp only [readClock, dateTimeText, shown, skip_cons, readDigits_pad month, readDigits_pad day, readDigits_pad hour,
    readDigits_pad minute, readDigits_pad second, between, fraction, Option.bind_eq_bind, Option.bind_some]
  rw [if_pos ⟨first, last, begin, finish, hours, minutes, seconds⟩]
  rfl

theorem clockOf_year (time : TimeValue) : (clockOf time.instant).year.natAbs < 999999 := by
  have range : Int.natAbs time.instant ≤ 8640000000000000 := time.range
  exact year_bound range

theorem dateParse_iso (engine : Engine) (zone : Zone) (time : TimeValue) :
    dateParse engine zone (toISOString time.instant) = some time.instant := by
  have valid := clockOf_valid time.instant
  have fraction : readFraction ('.' :: (pad 3 (clockOf time.instant).millisecond ++ ['Z'])) =
      some ((clockOf time.instant).millisecond, ['Z']) := by
    have three : (clockOf time.instant).millisecond < 10 ^ 3 := valid.millisecond
    rw [readFraction_pad three (by decide) (by decide) (by simp)]
    rw [Nat.sub_self, Nat.pow_zero, Nat.mul_one]
  have small : (clockOf time.instant).year.natAbs < 1000000 := Nat.lt_trans (clockOf_year time) (by decide)
  have read := readClock_text valid (readYear_iso small) (.inl rfl) fraction
  rw [dateParse, toISOString, String.toList_ofList, read, Option.bind_eq_bind, Option.bind_some, Reading.year,
    if_pos ⟨rfl, rfl⟩, Option.bind_eq_bind, Option.bind_some]
  change timeClip (clockOf time.instant).instant = _
  rw [clockOf_instant, timeClip, if_pos time.range]

/-- A reading without a zone stands for the time that it shows just where the engine takes
its year and the clocks show universal time: another year is too far for an offset. -/
theorem local_reading {engine : Engine} {zone : Zone} {time : TimeValue} {reading : Reading} {text : String}
    (read : readClock text.toList = some reading) (whole : reading.tail = [])
    (shown : reading.clock = clockOf time.instant) :
    dateParse engine zone text = some time.instant ↔
      reading.year engine = some (clockOf time.instant).year ∧ zone.offset time.instant = 0 := by
  have kept : (reading.clock.inYear (clockOf time.instant).year).instant = time.instant := by
    rw [shown]
    exact clockOf_instant time.instant
  rw [dateParse, read, Option.bind_eq_bind, Option.bind_some]
  cases taken : reading.year engine with
  | none => simp
  | some year =>
      rw [Option.bind_eq_bind, Option.bind_some, whole]
      dsimp only
      constructor
      · intro clipped
        unfold timeClip at clipped
        split at clipped
        · have same : (reading.clock.inYear year).instant - zone.offset (reading.clock.inYear year).instant =
              (time.instant : Int) := Option.some.inj clipped
          have near := zone.bounded ((reading.clock.inYear year).instant)
          have equal : year = (clockOf time.instant).year := by
            rcases Int.lt_trichotomy year (clockOf time.instant).year with before | equal | after
            · have far := @instant_years reading.clock _ _ before
              rw [kept] at far
              omega
            · exact equal
            · have far := @instant_years reading.clock _ _ after
              rw [kept] at far
              omega
          subst equal
          rw [kept] at same
          have universal : ∀ one other : Int, one - other = one → other = 0 := by omega
          exact ⟨rfl, universal _ _ same⟩
        · cases clipped
      · rintro ⟨same, universal⟩
        rw [Option.some.inj same, kept, universal, Int.sub_zero, timeClip, if_pos time.range]

/-- The years of timestamps that are read as they are written: ECMAScript defines those of
four digits before a `T`. -/
def KeepsYear (engine : Engine) (separator : Char) (year : Int) : Prop :=
  if year ≤ 9999 ∧ separator = 'T' then True else engine.takes separator year = some year

theorem dateParse_postgres (engine : Engine) (zone : Zone) (time : TimeValue) {separator : Char}
    (separated : separator = 'T' ∨ separator = ' ') :
    dateParse engine zone (postgresText separator time.instant) = some time.instant ↔
      0 < (clockOf time.instant).year ∧ KeepsYear engine separator (clockOf time.instant).year ∧
        zone.offset time.instant = 0 := by
  have valid := clockOf_valid time.instant
  have small := clockOf_year time
  by_cases positive : 0 < (clockOf time.instant).year
  · have size : (clockOf time.instant).year.natAbs < 1000000 := Nat.lt_trans small (by decide)
    have fraction : readFraction (postgresFraction (clockOf time.instant).millisecond ++ []) = _ :=
      readFraction_postgres valid.millisecond (by simp) (by simp)
    have read : readClock (postgresText separator time.instant).toList =
        some ⟨clockOf time.instant, decide ((clockOf time.instant).year ≤ 9999), separator, []⟩ := by
      rw [postgresText, String.toList_ofList, if_pos positive]
      exact readClock_text valid (readYear_postgres positive size) separated fraction
    rw [local_reading read rfl rfl]
    simp only [Reading.year, decide_eq_true_eq, KeepsYear]
    split
    · simp [positive]
    · simp [positive]
  · -- Years before the first are counted backwards and marked at the end, which no reading ends with.
    let marked : Clock := { clockOf time.instant with year := 1 - (clockOf time.instant).year }
    have later : marked.year > 0 := by
      change 1 - (clockOf time.instant).year > 0
      omega
    have size : marked.year.natAbs < 1000000 := by
      change (1 - (clockOf time.instant).year).natAbs < 1000000
      omega
    have same : postgresYear (clockOf time.instant).year = postgresYear marked.year := by
      simp only [postgresYear, if_neg positive, if_pos later]
      rfl
    have fraction : readFraction (postgresFraction marked.millisecond ++ " BC".toList) = _ :=
      readFraction_postgres valid.millisecond (by simp) (by simp)
    have ranges : marked.Valid :=
      ⟨valid.month, valid.day, valid.hour, valid.minute, valid.second, valid.millisecond⟩
    have read : readClock (postgresText separator time.instant).toList =
        some ⟨marked, decide (marked.year ≤ 9999), separator, " BC".toList⟩ := by
      rw [postgresText, String.toList_ofList, if_neg positive, same]
      exact readClock_text ranges (readYear_postgres later size) separated fraction
    rw [dateParse, read, Option.bind_eq_bind, Option.bind_some]
    cases Reading.year engine _ with
    | none => simp [positive]
    | some year => simp [positive]

end RoundTrip

end Keyzori
