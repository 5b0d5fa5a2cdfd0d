import Keyzori.Activity.Attempts
import Keyzori.Domain.DateTexts
import Keyzori.Migration.Overhaul
import Keyzori.Server.AdminService

namespace Keyzori

open CivilTime

/-- `LicenseTypeDrafts` with the text of its expiry. -/
structure TextDrafts where
  lifetime : Bool := false
  subscription : Option (Option String) := none
  metered : Option (List String) := none
  trial : Option Int := none
  deriving DecidableEq

structure TextConfig where
  expiresAt : Option Instant
  trialDurationMinutes : Int
  trialStartedAt : Option Instant
  typeDrafts : TextDrafts

namespace DraftTexts

variable (engine : Engine) (zone : Zone)

def dateText (text : String) : DateText :=
  if text = "" then .empty
  else match dateParse engine zone text with
    | some instant => .date instant
    | none => .invalid

def written (drafts : LicenseTypeDrafts) : TextDrafts where
  lifetime := drafts.lifetime
  subscription := drafts.subscription.map (Option.map toISOString)
  metered := drafts.metered
  trial := drafts.trial

/-- A new license has no drafts yet, so all of them are written here. -/
def createTypeConfig (data : CreateLicenseInput) (meters : List NewLicenseMeter) (now : Instant) :
    Except DomainError TextConfig :=
  (AdminService.createTypeConfig data meters now).map fun config =>
    ⟨config.expiresAt, config.trialDurationMinutes, config.trialStartedAt, written config.typeDrafts⟩

def withCurrentDraft (license : License) (drafts : TextDrafts) (meterNames : List String) : TextDrafts :=
  match license.type with
  | .subscription => { drafts with subscription := some (license.expiresAt.map toISOString) }
  | .trial => { drafts with trial := some license.trialDurationMinutes }
  | .metered => { drafts with metered := some (sortNames meterNames) }
  | .lifetime => { drafts with lifetime := true }

def updatedExpiry (current : License) (expiresAt : Option (Option DateText)) (typeChanged : Bool)
    (drafts : TextDrafts) (now : Instant) : Except DomainError (Option Instant) :=
  match truthy expiresAt.join with
  | some text => (parseFutureDate text now).map some
  | none =>
      if !typeChanged then .ok current.expiresAt
      else match truthy (drafts.subscription.join.map (dateText engine zone)) with
        | some draft => (parseFutureDate draft now).map some
        | none => .ok none

def updateTypeConfig (current : License) (data : UpdateLicenseInput) (targetType : LicenseType)
    (typeChanged : Bool) (drafts : TextDrafts) (now : Instant) : Except DomainError TextConfig :=
  match targetType with
  | .subscription =>
      if data.expiresAt = some none then
        .error (badRequest "Subscription licenses require expiresAt")
      else do
        match ← updatedExpiry engine zone current data.expiresAt typeChanged drafts now with
        | none => .error (badRequest "Subscription licenses require expiresAt")
        | some expiresAt => return ⟨some expiresAt, 0, none,
            { drafts with subscription := some (some (toISOString expiresAt)) }⟩
  | .trial =>
      let duration := data.trialDurationMinutes.or
        (if typeChanged then drafts.trial.map .integer
         else some (.integer current.trialDurationMinutes))
      match duration with
      | none => .error (badRequest "Trial licenses require trialDurationMinutes")
      | some duration => do
          let duration ← validateInteger duration "trialDurationMinutes" 1
          return ⟨none, duration, if typeChanged then some now else current.trialStartedAt,
            { drafts with trial := some duration }⟩
  | .lifetime => .ok ⟨none, 0, none, { drafts with lifetime := true }⟩
  | .metered => .ok ⟨none, 0, none, { drafts with metered := some (drafts.metered.getD []) }⟩

/-- The override of the repository's `update` under a link that is paid. -/
def overridePaidThrough (drafts : TextDrafts) (paidThrough : Option Instant) : TextDrafts :=
  match paidThrough with
  | some paidThrough => { drafts with subscription := some (some (toISOString paidThrough)) }
  | none => drafts

def columnExpiry (typeDrafts : Json) : Option (Option String) :=
  (typeDrafts.field "subscription").map fun draft => match draft.field "expiresAt" with
    | some (.string text) => some text
    | _ => none

def attemptRow (event : Migration.EventRow) : AttemptEvent :=
  ⟨event.ip, event.deviceId, event.details, event.createdAt⟩

section Agreement

structure Reads (texts : TextDrafts) (drafts : LicenseTypeDrafts) : Prop where
  lifetime : drafts.lifetime = texts.lifetime
  metered : drafts.metered = texts.metered
  trial : drafts.trial = texts.trial
  subscription : texts.subscription.map (Option.map (dateText engine zone)) =
    drafts.subscription.map (Option.map DateText.date)

variable {engine zone} {texts : TextDrafts} {drafts : LicenseTypeDrafts}

theorem toISOString_filled (instant : Instant) : toISOString instant ≠ "" := by
  intro empty
  have chars := congrArg String.toList empty
  simp [toISOString, dateTimeText] at chars

theorem dateText_iso (time : TimeValue) : dateText engine zone (toISOString time.instant) = .date time.instant := by
  rw [dateText, if_neg (toISOString_filled _), dateParse_iso]

theorem reads_subscription (reads : Reads engine zone texts drafts) (expiresAt : Option TimeValue) :
    Reads engine zone { texts with subscription := some (expiresAt.map fun time => toISOString time.instant) }
      { drafts with subscription := some (expiresAt.map TimeValue.instant) } := by
  refine ⟨reads.lifetime, reads.metered, reads.trial, ?_⟩
  cases expiresAt with
  | none => rfl
  | some time => simp [dateText_iso]

def TimeOf (instant : Option Instant) : Prop := ∃ time : Option TimeValue, instant = time.map TimeValue.instant

theorem withCurrentDraft_reads {license : License} (reads : Reads engine zone texts license.typeDrafts)
    (valid : TimeOf license.expiresAt) (meterNames : List String) :
    Reads engine zone (withCurrentDraft license texts meterNames)
      (AdminService.withCurrentDraft license meterNames) := by
  unfold withCurrentDraft AdminService.withCurrentDraft
  cases license.type with
  | subscription =>
      obtain ⟨time, same⟩ := valid
      have written := reads_subscription reads time
      rw [← same] at written
      rw [same, Option.map_map]
      rw [same] at written
      exact written
  | lifetime => exact ⟨rfl, reads.metered, reads.trial, reads.subscription⟩
  | metered => exact ⟨reads.lifetime, rfl, reads.trial, reads.subscription⟩
  | trial => exact ⟨reads.lifetime, reads.metered, rfl, reads.subscription⟩

theorem overridePaidThrough_reads (reads : Reads engine zone texts drafts) (paidThrough : TimeValue) :
    Reads engine zone (overridePaidThrough texts (some paidThrough.instant))
      { drafts with subscription := some (some paidThrough.instant) } :=
  reads_subscription reads (some paidThrough)

variable {current : License} {data : UpdateLicenseInput} {target : LicenseType} {changed : Bool} {now : Instant}

theorem updatedExpiry_reads (reads : Reads engine zone texts drafts) (expiresAt : Option (Option DateText)) :
    updatedExpiry engine zone current expiresAt changed texts now =
      AdminService.updatedExpiry current expiresAt changed drafts now := by
  unfold updatedExpiry AdminService.updatedExpiry
  cases truthy expiresAt.join with
  | some text => rfl
  | none =>
      cases changed with
      | false => rfl
      | true =>
          have shown : texts.subscription.join.map (dateText engine zone) =
              drafts.subscription.join.map DateText.date := by
            have same := reads.subscription
            cases first : texts.subscription <;> cases second : drafts.subscription <;>
              simp_all
          rw [shown]
          cases drafts.subscription.join <;> rfl

/-- An update on texts is the update of the server model on what they are read as. -/
theorem updateTypeConfig_reads (reads : Reads engine zone texts drafts) :
    (updateTypeConfig engine zone current data target changed texts now).map
        (fun config => (config.expiresAt, config.trialDurationMinutes, config.trialStartedAt)) =
      (AdminService.updateTypeConfig current data target changed drafts now).map
        (fun config => (config.expiresAt, config.trialDurationMinutes, config.trialStartedAt)) ∧
      ∀ config other, updateTypeConfig engine zone current data target changed texts now = .ok config →
        AdminService.updateTypeConfig current data target changed drafts now = .ok other →
        TimeOf other.expiresAt → Reads engine zone config.typeDrafts other.typeDrafts := by
  cases target with
  | subscription =>
      simp only [updateTypeConfig, AdminService.updateTypeConfig, updatedExpiry_reads reads]
      split
      · exact ⟨rfl, fun _ _ made => by cases made⟩
      · cases AdminService.updatedExpiry current data.expiresAt changed drafts now with
        | error error => exact ⟨rfl, fun _ _ made => by cases made⟩
        | ok expiresAt =>
            cases expiresAt with
            | none => exact ⟨rfl, fun _ _ made => by cases made⟩
            | some expiresAt =>
                refine ⟨rfl, fun config other made same valid => ?_⟩
                cases made
                cases same
                obtain ⟨time, equal⟩ := valid
                cases time with
                | none => cases equal
                | some time =>
                    cases equal
                    exact reads_subscription reads (some time)
  | trial =>
      simp only [updateTypeConfig, AdminService.updateTypeConfig, reads.trial]
      cases data.trialDurationMinutes.or (if changed then texts.trial.map Number.integer
          else some (Number.integer current.trialDurationMinutes)) with
      | none => exact ⟨rfl, fun _ _ made => by cases made⟩
      | some duration =>
          dsimp only
          cases validateInteger duration "trialDurationMinutes" 1 with
          | error error => exact ⟨rfl, fun _ _ made => by cases made⟩
          | ok duration =>
              refine ⟨rfl, fun config other made same _ => ?_⟩
              cases made
              cases same
              exact ⟨reads.lifetime, reads.metered, rfl, reads.subscription⟩
  | lifetime =>
      refine ⟨rfl, fun config other made same _ => ?_⟩
      cases made
      cases same
      exact ⟨rfl, reads.metered, reads.trial, reads.subscription⟩
  | metered =>
      refine ⟨rfl, fun config other made same _ => ?_⟩
      cases made
      cases same
      exact ⟨reads.lifetime, by rw [reads.metered], reads.trial, reads.subscription⟩

end Agreement

section Paths

/-- Who writes a time into a column of JSON. -/
inductive TimePath
  | createTypeConfig
  | updateTypeConfig
  | withCurrentDraft
  | overridePaidThrough
  | migratedDraft
  | migratedAttempt
  deriving DecidableEq, Repr

def TimePath.migrated : TimePath → Bool
  | migratedDraft => true
  | migratedAttempt => true
  | _ => false

variable (engine : Engine) (zone : Zone)

def DraftReads (subscription : Option (Option String)) (instant : Instant) : Prop :=
  ∃ text, subscription = some (some text) ∧
    ∀ now, parseFutureDate (dateText engine zone text) now = parseFutureDate (.date instant) now

/-- Whatever a path writes for a time is read as that time. -/
def ReadsBack (time : TimeValue) : TimePath → Prop
  | .createTypeConfig => ∀ data meters now config, createTypeConfig data meters now = .ok config →
      config.expiresAt = some time.instant → DraftReads engine zone config.typeDrafts.subscription time.instant
  | .updateTypeConfig => ∀ current data target changed drafts now config,
      updateTypeConfig engine zone current data target changed drafts now = .ok config →
      config.expiresAt = some time.instant → DraftReads engine zone config.typeDrafts.subscription time.instant
  | .withCurrentDraft => ∀ license drafts meterNames, license.type = .subscription →
      license.expiresAt = some time.instant →
      DraftReads engine zone (withCurrentDraft license drafts meterNames).subscription time.instant
  | .overridePaidThrough => ∀ drafts,
      DraftReads engine zone (overridePaidThrough drafts (some time.instant)).subscription time.instant
  | .migratedDraft => ∀ (pg : Migration.Postgres) row, pg.timestampText = timestampText →
      row.keyType = .subscription → 0 < row.trialDurationMinutes → row.expiresAt = some time.instant →
      DraftReads engine zone (columnExpiry (Migration.storeTypeDrafts pg row).typeDrafts) time.instant
  | .migratedAttempt => ∀ (pg : Migration.Postgres) (integer : String → Option Int) ip attempt license field,
      pg.timestampJson = timestampJson → attempt.firstAttemptedAt = time.instant → ip ≠ "" → attempt.hwid ≠ "" →
      (summarizeAttempts ⟨integer, dateParse engine zone⟩ [attemptRow (Migration.attemptEvent pg ip attempt license)]
        field).map AccessAttemptIdentifier.firstAttemptedAt = [time.instant]

variable {engine zone} {time : TimeValue}

theorem draftReads_iff {text : String} (filled : text ≠ "") (instant : Instant) :
    DraftReads engine zone (some (some text)) instant ↔ dateParse engine zone text = some instant := by
  constructor
  · rintro ⟨_, written, same⟩
    cases written
    have before : ¬instant ≤ instant - 1 := Int.not_le.mpr (Int.sub_lt_self _ (by decide))
    have read := same (instant - 1)
    rw [dateText, if_neg filled] at read
    cases parsed : dateParse engine zone text with
    | none => simp [parsed, parseFutureDate, before] at read
    | some found =>
        simp only [parsed, parseFutureDate, if_neg before] at read
        split at read
        · cases read
        · rw [Except.ok.inj read]
  · intro parsed
    exact ⟨text, rfl, fun now => by rw [dateText, if_neg filled, parsed]⟩

theorem iso_reads (time : TimeValue) : DraftReads engine zone (some (some (toISOString time.instant))) time.instant :=
  (draftReads_iff (toISOString_filled _) _).mpr (dateParse_iso engine zone time)

theorem createTypeConfig_reads (time : TimeValue) : ReadsBack engine zone time .createTypeConfig := by
  intro data meters now config made expires
  rw [createTypeConfig] at made
  cases abstract : AdminService.createTypeConfig data meters now with
  | error error => rw [abstract] at made; cases made
  | ok settings =>
      rw [abstract] at made
      cases made
      rcases AdminService.createTypeConfig_ok abstract with
        ⟨-, expiresAt, rfl⟩ | ⟨-, duration, -, -, rfl⟩ | ⟨-, rfl⟩ | ⟨-, rfl⟩
      · cases expires
        exact iso_reads time
      · cases expires
      · cases expires
      · cases expires

theorem updateTypeConfig_back (time : TimeValue) : ReadsBack engine zone time .updateTypeConfig := by
  intro current data target changed drafts now config made expires
  cases target with
  | subscription =>
      simp only [updateTypeConfig] at made
      split at made
      · cases made
      · obtain ⟨expiresAt, -, rest⟩ := bind_ok.mp made
        cases expiresAt with
        | none => cases rest
        | some expiresAt =>
            cases rest
            cases expires
            exact iso_reads time
  | trial =>
      simp only [updateTypeConfig] at made
      split at made
      · cases made
      · obtain ⟨duration, -, rest⟩ := bind_ok.mp made
        cases rest
        cases expires
  | lifetime =>
      cases made
      cases expires
  | metered =>
      cases made
      cases expires

theorem withCurrentDraft_back (time : TimeValue) : ReadsBack engine zone time .withCurrentDraft := by
  intro license drafts meterNames type expires
  rw [withCurrentDraft, type, expires]
  exact iso_reads time

theorem overridePaidThrough_back (time : TimeValue) : ReadsBack engine zone time .overridePaidThrough :=
  fun _ => iso_reads time

theorem columnExpiry_migrated {pg : Migration.Postgres} {row : Migration.LicenseRow}
    (subscription : row.keyType = .subscription) (expires : row.expiresAt = some time.instant) :
    columnExpiry (Migration.storeTypeDrafts pg row).typeDrafts =
      some (some (pg.timestampText time.instant)) := by
  simp only [Migration.storeTypeDrafts, Migration.typeDraft, subscription, expires, Migration.trialDraft]
  split <;> simp [Migration.concat, columnExpiry, Json.field]

theorem postgresText_filled (separator : Char) (instant : Instant) : postgresText separator instant ≠ "" := by
  intro empty
  have chars := congrArg String.toList empty
  simp [postgresText, dateTimeText] at chars

/-- A trial that came with a subscription's expiry. Only drafts of trials are parsed again:
leaving the type of a subscription writes its draft anew. -/
def legacyTrial (expiresAt : Instant) : Migration.LicenseRow :=
  { id := "license", keyHash := "hash", keyPrefix := "lic_", customerId := "customer", keyType := .subscription
    type := .lifetime, maxIps := 0, maxDevices := 0, maxSessions := 0, limitUsage := 0, trialDurationMinutes := 20160
    trialStartedAt := none, metadata := "\x7b\x7d", expiresAt := some expiresAt, revoked := false, createdAt := 0
    typeDrafts := .null, manualRevokedAt := none, manualRevocationReason := none, updatedAt := 0
    sessionRevision := 0 }

def timestampsPostgres : Migration.Postgres := ⟨some, timestampText, timestampJson, 0⟩

theorem migratedDraft_iff : ReadsBack engine zone time .migratedDraft ↔
    0 < (clockOf time.instant).year ∧ KeepsYear engine ' ' (clockOf time.instant).year ∧
      zone.offset time.instant = 0 := by
  have filled := postgresText_filled ' ' time.instant
  rw [← dateParse_postgres engine zone time (.inr rfl), ← draftReads_iff filled]
  have lasting : 0 < (legacyTrial time.instant).trialDurationMinutes := Int.natCast_pos.mpr (Nat.succ_pos 20159)
  constructor
  · intro back
    have read := back timestampsPostgres (legacyTrial time.instant) rfl rfl lasting rfl
    rwa [columnExpiry_migrated rfl rfl] at read
  · intro read pg row texts subscription trial expires
    rw [columnExpiry_migrated subscription expires, texts]
    exact read

theorem summarized_attempt {pg : Migration.Postgres} {integer : String → Option Int} {ip : String}
    {attempt : Migration.AttemptRow} {license : Migration.LicenseRow} (located : ip ≠ "")
    (named : attempt.hwid ≠ "") (field : AttemptField) :
    (summarizeAttempts ⟨integer, dateParse engine zone⟩ [attemptRow (Migration.attemptEvent pg ip attempt license)]
      field).map AccessAttemptIdentifier.firstAttemptedAt =
        [(dateParse engine zone (pg.timestampJson attempt.firstAttemptedAt)).getD attempt.lastAttemptedAt] := by
  cases field <;>
    simp [summarizeAttempts, addAttempt, AttemptField.read, attemptRow, Migration.attemptEvent, newAttempt,
      firstAttempt, Json.field, located, named]

theorem migratedAttempt_iff : ReadsBack engine zone time .migratedAttempt ↔
    0 < (clockOf time.instant).year ∧ KeepsYear engine 'T' (clockOf time.instant).year ∧
      zone.offset time.instant = 0 := by
  rw [← dateParse_postgres engine zone time (.inl rfl)]
  have named : ("pc" : String) ≠ "" := by decide
  constructor
  · intro back
    have read := back timestampsPostgres (fun _ => none) "192.0.2.1"
      ⟨"attempt", "license", "192.0.2.1", "pc", 1, time.instant, time.instant + 1⟩ (legacyTrial 0) .ip rfl rfl
      (by decide) named
    rw [summarized_attempt (by decide) named] at read
    have first := (List.cons.inj read).1
    change (dateParse engine zone (postgresText 'T' time.instant)).getD (time.instant + 1) = time.instant at first
    cases parsed : dateParse engine zone (postgresText 'T' time.instant) with
    | none =>
        rw [parsed] at first
        exact absurd first (Int.ne_of_gt (Int.lt_succ _))
    | some found =>
        rw [parsed] at first
        rw [← first]
        rfl
  · intro read pg integer ip attempt license field texts first located named
    rw [summarized_attempt located named, first, texts, timestampJson, read]
    rfl

def TimePath.separator : TimePath → Char
  | migratedDraft => ' '
  | _ => 'T'

/-- A time comes back from its column unless the migration wrote it, and its year is not
read as written or the clocks of the zone do not show universal time then. -/
theorem timestamps_read_back (engine : Engine) (zone : Zone) (time : TimeValue) (path : TimePath) :
    ReadsBack engine zone time path ↔ (path.migrated = true →
      0 < (clockOf time.instant).year ∧ KeepsYear engine path.separator (clockOf time.instant).year ∧
        zone.offset time.instant = 0) := by
  cases path with
  | createTypeConfig => exact ⟨fun _ => nofun, fun _ => createTypeConfig_reads time⟩
  | updateTypeConfig => exact ⟨fun _ => nofun, fun _ => updateTypeConfig_back time⟩
  | withCurrentDraft => exact ⟨fun _ => nofun, fun _ => withCurrentDraft_back time⟩
  | overridePaidThrough => exact ⟨fun _ => nofun, fun _ => overridePaidThrough_back time⟩
  | migratedDraft => exact migratedDraft_iff.trans ⟨fun back _ => back, fun back => back rfl⟩
  | migratedAttempt => exact migratedAttempt_iff.trans ⟨fun back _ => back, fun back => back rfl⟩

/-- Years of two digits stand for 1950 to 2049, and a `T` stands before no year but the
ones ECMAScript defines. -/
def twoDigitYears : Engine where
  takes separator year :=
    if separator = 'T' then none
    else if year < 50 then some (year + 2000)
    else if year < 100 then some (year + 1900)
    else some year
  plain year late _ := by
    rw [if_neg (by decide), if_neg (by omega), if_neg (by omega)]

def tenHoursAhead : Zone := ⟨fun _ => 36000000, fun _ => by decide⟩

/-- The subscription of a trial until the year 2027, migrated under clocks ten hours ahead. -/
theorem migrated_draft_drifts :
    ¬ReadsBack twoDigitYears tenHoursAhead ⟨1798761600000, by decide⟩ .migratedDraft := by
  intro back
  have universal := (migratedDraft_iff.mp back).2.2
  cases universal

example : toISOString 1798761600000 = "2027-01-01T00:00:00.000Z" := by decide

example : timestampText 1798761600120 = "2027-01-01 00:00:00.12" := by decide

end Paths

end DraftTexts

end Keyzori
