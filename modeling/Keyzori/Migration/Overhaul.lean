import Keyzori.Library.RowGroups
import Keyzori.Library.SchemaChanges
import Keyzori.Migration.Rows
import Mathlib.Algebra.Ring.Int.Defs
import Mathlib.Data.Prod.Lex
import Mathlib.Data.String.Basic

/-! The statements of the migration `licensing_overhaul`, in their order, over the schema
that the earlier migrations leave. PostgreSQL's conversions of addresses and timestamps
are parameters, and its order of texts is that of their code points. -/

namespace Keyzori.Migration

open SchemaChanges SchemaChanges.Change RowGroups

/-- `host(text::inet)` fails on a text that is no address; `now` is that of the transaction. -/
structure Postgres where
  host : String → Option String
  timestampText : Instant → String
  timestampJson : Instant → String
  now : Instant

abbrev Step := Statement Rule Postgres Rows

section Schema

def text (name : String) : Column := { name, type := "text", required := true }

def optionalText (name : String) : Column := { name, type := "text" }

def integer (name : String) : Column := { name, type := "integer", required := true }

def count (name : String) : Column := { name, type := "integer", required := true, defaulted := true }

def document (name : String) : Column := { name, type := "jsonb", required := true, defaulted := true }

def timestamp (name : String) : Column := { name, type := "timestamp(3)" }

def stamped (name : String) : Column :=
  { name, type := "timestamp(3)", required := true, defaulted := true }

def flag (name : String) : Column := { name, type := "boolean", required := true, defaulted := true }

def primaryKey (name relation column : String) (table : Table) : Constraint Rule :=
  { name, relation, columns := [column], kind := .unique, rule := some (.key table) }

def uniqueConstraint (name relation : String) (columns : List String) (keys : Unique) : Constraint Rule :=
  { name, relation, columns, kind := .unique, rule := some (.unique keys) }

def uniqueIndex (name relation : String) (columns : List String) (keys : Unique) : Constraint Rule :=
  { uniqueConstraint name relation columns keys with index := true }

def plainIndex (name relation : String) (columns : List String) : Constraint Rule :=
  { name, relation, columns, kind := .plain, index := true }

def foreignKey (name relation column target : String) (reference : Reference) : Constraint Rule :=
  { name, relation, columns := [column], kind := .references target "id"
    rule := some (.reference reference) }

def checks (name relation : String) (columns : List String) (check : Check) : Constraint Rule :=
  { name, relation, columns, kind := .check, rule := some (.check check) }

/-- The schema after the six earlier migrations. -/
def legacyCatalog : Catalog Rule :=
  { types := ["text", "integer", "bigint", "boolean", "jsonb", "timestamp(3)", "timestamp(0)", "KeyType"]
    relations := [
      ⟨"User", [text "id", text "email", text "name", stamped "createdAt", document "customFields"]⟩,
      ⟨"ApiKey", [text "id", text "userId",
        { name := "type", type := "KeyType", required := true, defaulted := true },
        count "limitIp", count "limitHwid", count "limitConcurrent", count "limitUsage",
        count "trialDurationMin", timestamp "firstActivatedAt", document "customFields",
        timestamp "expiresAt", flag "revoked", stamped "createdAt", text "keyHash", text "keyPrefix"]⟩,
      ⟨"HwidWhitelist", [text "id", text "apiKeyId", text "hwid", stamped "createdAt"]⟩,
      ⟨"IpWhitelist", [text "id", text "apiKeyId", text "ip", stamped "createdAt"]⟩,
      ⟨"KeyDeviceMapping", [text "id", text "apiKeyId", text "registeredDeviceId", stamped "createdAt"]⟩,
      ⟨"RegisteredDevice", [text "id", text "ip", text "hwid", stamped "createdAt"]⟩,
      ⟨"AccessAttempt", [text "id", text "apiKeyId", text "ip", text "hwid", count "attemptCount",
        stamped "firstAttemptedAt", stamped "lastAttemptedAt"]⟩]
    constraints := [
      primaryKey "User_pkey" "User" "id" .customers,
      uniqueConstraint "User_email_key" "User" ["email"] .customersEmail,
      primaryKey "ApiKey_pkey" "ApiKey" "id" .licenses,
      uniqueConstraint "ApiKey_keyHash_key" "ApiKey" ["keyHash"] .licensesKeyHash,
      foreignKey "ApiKey_userId_fkey" "ApiKey" "userId" "User" .licensesCustomer,
      checks "ApiKey_limitIp_nonnegative" "ApiKey" ["limitIp"] .maxIps,
      checks "ApiKey_limitHwid_nonnegative" "ApiKey" ["limitHwid"] .maxDevices,
      checks "ApiKey_limitConcurrent_nonnegative" "ApiKey" ["limitConcurrent"] .maxSessions,
      checks "ApiKey_limitUsage_nonnegative" "ApiKey" ["limitUsage"] .limitUsage,
      checks "ApiKey_trialDurationMin_nonnegative" "ApiKey" ["trialDurationMin"] .trialDuration,
      primaryKey "HwidWhitelist_pkey" "HwidWhitelist" "id" .deviceEntries,
      foreignKey "HwidWhitelist_apiKeyId_fkey" "HwidWhitelist" "apiKeyId" "ApiKey" .deviceEntriesLicense,
      uniqueIndex "HwidWhitelist_apiKeyId_hwid_key" "HwidWhitelist" ["apiKeyId", "hwid"] .deviceEntries,
      primaryKey "IpWhitelist_pkey" "IpWhitelist" "id" .ipEntries,
      foreignKey "IpWhitelist_apiKeyId_fkey" "IpWhitelist" "apiKeyId" "ApiKey" .ipEntriesLicense,
      uniqueIndex "IpWhitelist_apiKeyId_ip_key" "IpWhitelist" ["apiKeyId", "ip"] .ipEntries,
      primaryKey "KeyDeviceMapping_pkey" "KeyDeviceMapping" "id" .mappings,
      foreignKey "KeyDeviceMapping_apiKeyId_fkey" "KeyDeviceMapping" "apiKeyId" "ApiKey" .mappingsLicense,
      foreignKey "KeyDeviceMapping_registeredDeviceId_fkey" "KeyDeviceMapping" "registeredDeviceId"
        "RegisteredDevice" .mappingsDevice,
      uniqueIndex "KeyDeviceMapping_apiKeyId_registeredDeviceId_key" "KeyDeviceMapping"
        ["apiKeyId", "registeredDeviceId"] .mappings,
      primaryKey "RegisteredDevice_pkey" "RegisteredDevice" "id" .devices,
      uniqueIndex "RegisteredDevice_ip_hwid_key" "RegisteredDevice" ["ip", "hwid"] .devices,
      primaryKey "AccessAttempt_pkey" "AccessAttempt" "id" .attempts,
      foreignKey "AccessAttempt_apiKeyId_fkey" "AccessAttempt" "apiKeyId" "ApiKey" .attemptsLicense,
      uniqueIndex "AccessAttempt_apiKeyId_ip_hwid_key" "AccessAttempt" ["apiKeyId", "ip", "hwid"]
        .attempts] }

end Schema

section Rows

def Postgres.address (pg : Postgres) (text : String) : Except String String :=
  match pg.host text with
  | some address => .ok address
  | none => .error "invalid input syntax for type inet"

/-- `||` of two `jsonb` values. -/
def concat : Json → Json → Json
  | .object first, .object second =>
      .object ((first.filter fun field => second.all fun other => other.1 ≠ field.1) ++ second)
  | .array first, .array second => .array (first ++ second)
  | .array first, second => .array (first ++ [second])
  | first, .array second => .array (first :: second)
  | first, second => .array [first, second]

/-- `?`. -/
def hasKey (name : String) : Json → Bool
  | .object fields => fields.any fun field => field.1 = name
  | .array items => items.any fun item => match item with
    | .string value => value = name
    | _ => false
  | .string value => value = name
  | _ => false

def usageDraft : Json := .object [("metered", .object [("meterNames", .array [.string "usage"])])]

/-- The `CASE` on the old type. -/
def typeDraft (pg : Postgres) (row : LicenseRow) : Json :=
  match row.keyType with
  | .perpetual => .object [("lifetime", .object [])]
  | .subscription => .object [("subscription", .object [("expiresAt", match row.expiresAt with
      | none => .null
      | some expiresAt => .string (pg.timestampText expiresAt))])]
  | .usage => usageDraft

def trialDraft (row : LicenseRow) : Json :=
  if row.trialDurationMinutes > 0 then
    .object [("trial", .object [("durationMinutes", .number (toString row.trialDurationMinutes))])]
  else .object []

def storeTypeDrafts (pg : Postgres) (row : LicenseRow) : LicenseRow :=
  { row with typeDrafts := concat (typeDraft pg row) (trialDraft row) }

def storeRevocation (row : LicenseRow) : LicenseRow :=
  if row.revoked then
    { row with
      manualRevokedAt := some row.createdAt
      manualRevocationReason := some "Migrated manual revocation" }
  else row

def storeExpiry (row : LicenseRow) : LicenseRow :=
  if row.keyType = .subscription ∧ row.trialDurationMinutes = 0 ∧ row.expiresAt = none then
    { row with expiresAt := some row.createdAt }
  else row

/-- The `USING` of the column's new type. -/
def convertType (row : LicenseRow) : LicenseRow :=
  { row with type :=
      if row.trialDurationMinutes > 0 then .trial
      else match row.keyType with
        | .perpetual => .lifetime
        | .subscription => .subscription
        | .usage => .metered }

def clearOtherTypes (row : LicenseRow) : LicenseRow :=
  { row with
    expiresAt := if row.type = .subscription then row.expiresAt else none
    trialDurationMinutes := if row.type = .trial then row.trialDurationMinutes else 0
    trialStartedAt := if row.type = .trial then row.trialStartedAt else none }

def storeUsageDraft (row : LicenseRow) : LicenseRow :=
  if row.limitUsage > 0 ∧ ¬hasKey "metered" row.typeDrafts then
    { row with typeDrafts := concat row.typeDrafts usageDraft }
  else row

def canonicalIpEntries (pg : Postgres) (rows : Rows) : Except String Rows := do
  let ipEntries ← rows.ipEntries.mapM fun row => do
    let ip ← pg.address row.ip
    return { row with ip }
  return { rows with ipEntries }

def ipEntryKey (row : IpEntryRow) : String × String := (row.licenseId, row.ip)

def ipEntryOrder (row : IpEntryRow) : Lex (Instant × String) := toLex (row.createdAt, row.id)

def deleteDuplicates (rows : Rows) : Rows :=
  let duplicates := (rows.ipEntries.filter fun row =>
    rank ipEntryKey ipEntryOrder rows.ipEntries row > 1).map IpEntryRow.id
  { rows with ipEntries := rows.ipEntries.filter fun row => row.id ∉ duplicates }

def usageMeter (pg : Postgres) (row : LicenseRow) : MeterRow :=
  ⟨"legacy-usage-" ++ row.id, row.id, "usage", row.limitUsage, none, row.createdAt, pg.now⟩

def insertMeters (pg : Postgres) (rows : Rows) : Rows :=
  { rows with meters := rows.meters ++
      (rows.licenses.filter fun row => hasKey "metered" row.typeDrafts).map (usageMeter pg) }

def createEntry (meter : MeterRow) : LedgerRow :=
  ⟨"legacy-meter-ledger-" ++ meter.licenseId, meter.licenseId, meter.id,
    "migration:create:" ++ meter.licenseId, "create", meter.balance, 0, meter.balance,
    some "Migrated legacy usage balance", meter.createdAt⟩

def isLegacyMeter (meter : MeterRow) : Bool := "legacy-usage-".toList.isPrefixOf meter.id.toList

def insertLedger (rows : Rows) : Rows :=
  { rows with ledger := rows.ledger ++ (rows.meters.filter isLegacyMeter).map createEntry }

def attemptLicenses (rows : Rows) : List (AttemptRow × LicenseRow) :=
  join AttemptRow.apiKeyId LicenseRow.id rows.attempts rows.licenses

def attempted : String := "license.activation_attempted"

def attemptEvent (pg : Postgres) (ip : String) (attempt : AttemptRow) (license : LicenseRow) : EventRow :=
  { id := "legacy-attempt-" ++ attempt.id
    type := attempted
    source := "client"
    outcome := "success"
    reason := none
    licenseId := some attempt.apiKeyId
    customerId := some license.customerId
    keyPrefix := some license.keyPrefix
    ip := some ip
    deviceId := some attempt.hwid
    details := .object [("attemptCount", .number (toString attempt.attemptCount)),
      ("firstAttemptedAt", .string (pg.timestampJson attempt.firstAttemptedAt))]
    createdAt := attempt.lastAttemptedAt }

def insertAttempts (pg : Postgres) (rows : Rows) : Except String Rows := do
  let events ← (attemptLicenses rows).mapM fun pair => do
    let ip ← pg.address pair.1.ip
    return attemptEvent pg ip pair.1 pair.2
  return { rows with events := rows.events ++ events }

def attemptSum (group : List AttemptRow) : Int := (group.map AttemptRow.attemptCount).sum

def truncateMinute (instant : Instant) : Instant := instant - instant % 60000

def attemptMinute (attempt : AttemptRow) : Instant := truncateMinute attempt.lastAttemptedAt

def licenseMinute (attempt : AttemptRow) : Instant × String := (attemptMinute attempt, attempt.apiKeyId)

def customerMinute (pair : AttemptRow × LicenseRow) : Instant × String :=
  (attemptMinute pair.1, pair.2.customerId)

def insertGlobalTotal (rows : Rows) : Rows :=
  { rows with totals := rows.totals ++
      if rows.attempts.isEmpty then [] else [⟨"global", "", attempted, attemptSum rows.attempts⟩] }

def insertLicenseTotals (rows : Rows) : Rows :=
  { rows with totals := rows.totals ++ (groups AttemptRow.apiKeyId rows.attempts).map fun group =>
      ⟨"license", group.1, attempted, attemptSum group.2⟩ }

def insertCustomerTotals (rows : Rows) : Rows :=
  { rows with totals := rows.totals ++
      (groups (fun pair => pair.2.customerId) (attemptLicenses rows)).map fun group =>
        ⟨"customer", group.1, attempted, attemptSum (group.2.map Prod.fst)⟩ }

def insertGlobalBuckets (rows : Rows) : Rows :=
  { rows with buckets := rows.buckets ++ (groups attemptMinute rows.attempts).map fun group =>
      ⟨group.1, "global", "", attempted, attemptSum group.2⟩ }

def insertLicenseBuckets (rows : Rows) : Rows :=
  { rows with buckets := rows.buckets ++
      (groups licenseMinute rows.attempts).map fun group =>
        ⟨group.1.1, "license", group.1.2, attempted, attemptSum group.2⟩ }

def insertCustomerBuckets (rows : Rows) : Rows :=
  { rows with buckets := rows.buckets ++
      (groups customerMinute (attemptLicenses rows)).map fun group =>
        ⟨group.1.1, "customer", group.1.2, attempted, attemptSum (group.2.map Prod.fst)⟩ }

def mappedDevices (rows : Rows) : List (MappingRow × DeviceRow) :=
  join MappingRow.registeredDeviceId DeviceRow.id rows.mappings rows.devices

def registration (ip : String) (mapping : MappingRow) (device : DeviceRow) : RegisteredRow :=
  ⟨mapping.id, mapping.apiKeyId, ip, device.hwid, mapping.createdAt, mapping.createdAt⟩

def registeredKey (row : RegisteredRow) : String × String × String := (row.licenseId, row.ip, row.deviceId)

def registeredOrder (row : RegisteredRow) : Lex (Instant × String) := toLex (row.createdAt, row.id)

/-- `DISTINCT ON` keeps the first row of each group. -/
def insertRegistered (pg : Postgres) (rows : Rows) : Except String Rows := do
  let found ← (mappedDevices rows).mapM fun pair => do
    let ip ← pg.address pair.2.ip
    return registration ip pair.1 pair.2
  return { rows with registered := rows.registered ++ leaders registeredKey registeredOrder found }

def orphanEvent (device : DeviceRow) : EventRow :=
  { id := "legacy-orphan-device-" ++ device.id
    type := attempted
    source := "system"
    outcome := "rejected"
    reason := none
    licenseId := none
    customerId := none
    keyPrefix := none
    ip := some device.ip
    deviceId := some device.hwid
    details := .object [("legacyOrphanedRegistration", .boolean true)]
    createdAt := device.createdAt }

def insertOrphans (rows : Rows) : Rows :=
  { rows with events := rows.events ++ (rows.devices.filter fun device =>
      !rows.mappings.any fun mapping => mapping.registeredDeviceId = device.id).map orphanEvent }

end Rows

section Statements

def changes (reads : List (String × List String)) (write : Postgres → Rows → Except String Rows) : Step :=
  { change := uses reads, write }

def updates (columns : List String) (write : Postgres → LicenseRow → LicenseRow) : Step :=
  changes [("licenses", columns)] fun pg rows =>
    .ok { rows with licenses := rows.licenses.map (write pg) }

def adds (column : Column) (write : Postgres → LicenseRow → LicenseRow) : Step :=
  { change := addColumn "licenses" column
    write := fun pg rows => .ok { rows with licenses := rows.licenses.map (write pg) } }

def insertsInto (table : String) (columns : List String) (sources : List (String × List String))
    (write : Postgres → Rows → Except String Rows) : Step :=
  { change := inserts table columns sources, write }

def creates (relation : Relation) (constraints : List (Constraint Rule)) (write : Rows → Rows) : Step :=
  { change := createTable relation constraints, write := fun _ rows => .ok (write rows) }

def customers : List (Segment Rule Postgres Rows) := [
  { first := quiet (createType "license_type")
    changes := [
      createType "stripe_webhook_status",
      renameTable "User" "customers",
      renameColumn "customers" "customFields" "metadata",
      renameColumn "customers" "createdAt" "created_at"] },
  { first := {
      change := addColumn "customers" (stamped "updated_at")
      write := fun pg rows => .ok { rows with
        customers := rows.customers.map fun row => { row with updatedAt := pg.now } } }
    changes := [
      renameConstraint "customers" "User_pkey" "customers_pkey",
      dropConstraintIfExists "customers" "User_email_key",
      addConstraint (uniqueConstraint "customers_email_unique" "customers" ["email"] .customersEmail),
      renameTable "ApiKey" "licenses"] }]

def licenses : List (Segment Rule Postgres Rows) := [
  { first := adds (document "type_drafts") fun _ row => { row with typeDrafts := .object [] }
    changes := [] },
  { first := adds (timestamp "manual_revoked_at") fun _ row => { row with manualRevokedAt := none }
    changes := [] },
  { first := adds (optionalText "manual_revocation_reason") fun _ row =>
      { row with manualRevocationReason := none }
    changes := [] },
  { first := adds (stamped "updated_at") fun pg row => { row with updatedAt := pg.now }
    changes := [] },
  { first := adds (count "session_revision") fun _ row => { row with sessionRevision := 0 }
    changes := [] },
  { first := { updates ["type_drafts", "type", "expiresAt", "trialDurationMin"] storeTypeDrafts with
      change := also (compares "licenses" "type" "KeyType")
        (uses [("licenses", ["type_drafts", "type", "expiresAt", "trialDurationMin"])]) }
    changes := [] },
  { first := updates ["manual_revoked_at", "manual_revocation_reason", "createdAt", "revoked"]
      fun _ => storeRevocation
    changes := [] },
  { first := { updates ["expiresAt", "createdAt", "type", "trialDurationMin"] (fun _ => storeExpiry) with
      change := also (compares "licenses" "type" "KeyType")
        (uses [("licenses", ["expiresAt", "createdAt", "type", "trialDurationMin"])]) }
    changes := [dropDefault "licenses" "type"] },
  { first := { updates ["trialDurationMin", "type"] (fun _ => convertType) with
      change := also (compares "licenses" "type" "KeyType")
        (also (uses [("licenses", ["trialDurationMin", "type"])]) (alterType "licenses" "type" "license_type")) }
    changes := [
      setDefault "licenses" "type",
      renameColumn "licenses" "keyHash" "key_hash",
      renameColumn "licenses" "keyPrefix" "key_prefix",
      dropColumnIfExists "licenses" "key",
      renameColumn "licenses" "userId" "customer_id",
      renameColumn "licenses" "limitIp" "max_ips",
      renameColumn "licenses" "limitHwid" "max_devices",
      renameColumn "licenses" "limitConcurrent" "max_sessions",
      renameColumn "licenses" "trialDurationMin" "trial_duration_minutes",
      renameColumn "licenses" "firstActivatedAt" "trial_started_at",
      renameColumn "licenses" "customFields" "metadata",
      renameColumn "licenses" "expiresAt" "expires_at",
      renameColumn "licenses" "createdAt" "created_at"] },
  { first := { updates ["expires_at", "type", "trial_duration_minutes", "trial_started_at"]
        (fun _ => clearOtherTypes) with
      change := also (compares "licenses" "type" "license_type")
        (uses [("licenses", ["expires_at", "type", "trial_duration_minutes", "trial_started_at"])]) }
    changes := [
      renameConstraint "licenses" "ApiKey_pkey" "licenses_pkey",
      dropConstraintIfExists "licenses" "ApiKey_keyHash_key",
      addConstraint (uniqueConstraint "licenses_key_hash_unique" "licenses" ["key_hash"] .licensesKeyHash),
      dropConstraintIfExists "licenses" "ApiKey_userId_fkey",
      addConstraint (foreignKey "licenses_customer_id_fkey" "licenses" "customer_id" "customers"
        .licensesCustomer),
      dropConstraintIfExists "licenses" "ApiKey_limitIp_nonnegative",
      dropConstraintIfExists "licenses" "ApiKey_limitHwid_nonnegative",
      dropConstraintIfExists "licenses" "ApiKey_limitConcurrent_nonnegative",
      dropConstraintIfExists "licenses" "ApiKey_trialDurationMin_nonnegative",
      addConstraint (checks "licenses_max_ips_nonnegative" "licenses" ["max_ips"] .maxIps),
      addConstraint (checks "licenses_max_devices_nonnegative" "licenses" ["max_devices"] .maxDevices),
      addConstraint (checks "licenses_max_sessions_nonnegative" "licenses" ["max_sessions"] .maxSessions),
      addConstraint (checks "licenses_session_revision_nonnegative" "licenses" ["session_revision"]
        .sessionRevision),
      addConstraint (checks "licenses_trial_duration_nonnegative" "licenses" ["trial_duration_minutes"]
        .trialDuration),
      addConstraint (checks "licenses_subscription_expiry_required" "licenses" ["type", "expires_at"]
        .subscriptionExpiry),
      addConstraint (checks "licenses_trial_duration_required" "licenses"
        ["type", "trial_duration_minutes"] .trialRequired),
      dropColumn "licenses" "revoked",
      renameTable "IpWhitelist" "license_ip_allowlist_entries",
      renameColumn "license_ip_allowlist_entries" "apiKeyId" "license_id",
      renameColumn "license_ip_allowlist_entries" "createdAt" "created_at",
      dropIndexIfExists "IpWhitelist_apiKeyId_ip_key"] }]

def allowlists : List (Segment Rule Postgres Rows) := [
  { first := changes [("license_ip_allowlist_entries", ["ip"])] canonicalIpEntries
    changes := [] },
  { first := changes [("license_ip_allowlist_entries", ["id", "license_id", "ip", "created_at"])]
      fun _ rows => .ok (deleteDuplicates rows)
    changes := [
      renameConstraint "license_ip_allowlist_entries" "IpWhitelist_pkey"
        "license_ip_allowlist_entries_pkey",
      dropConstraintIfExists "license_ip_allowlist_entries" "IpWhitelist_apiKeyId_fkey",
      addConstraint (foreignKey "license_ip_allowlist_license_id_fkey" "license_ip_allowlist_entries"
        "license_id" "licenses" .ipEntriesLicense),
      addConstraint (uniqueIndex "license_ip_allowlist_license_ip_unique" "license_ip_allowlist_entries"
        ["license_id", "ip"] .ipEntries),
      renameTable "HwidWhitelist" "license_device_allowlist_entries",
      renameColumn "license_device_allowlist_entries" "apiKeyId" "license_id",
      renameColumn "license_device_allowlist_entries" "hwid" "device_id",
      renameColumn "license_device_allowlist_entries" "createdAt" "created_at",
      renameConstraint "license_device_allowlist_entries" "HwidWhitelist_pkey"
        "license_device_allowlist_entries_pkey",
      dropConstraintIfExists "license_device_allowlist_entries" "HwidWhitelist_apiKeyId_fkey",
      dropIndexIfExists "HwidWhitelist_apiKeyId_hwid_key",
      addConstraint (foreignKey "license_device_allowlist_license_id_fkey"
        "license_device_allowlist_entries" "license_id" "licenses" .deviceEntriesLicense),
      addConstraint (uniqueIndex "license_device_allowlist_license_device_unique"
        "license_device_allowlist_entries" ["license_id", "device_id"] .deviceEntries)] }]

def meters : List (Segment Rule Postgres Rows) := [
  { first := creates
      ⟨"license_meters", [text "id", text "license_id", text "name", count "balance",
        timestamp "archived_at", stamped "created_at", stamped "updated_at"]⟩
      [primaryKey "license_meters_pkey" "license_meters" "id" .meters,
        checks "license_meters_balance_nonnegative" "license_meters" ["balance"] .balance,
        foreignKey "license_meters_license_id_fkey" "license_meters" "license_id" "licenses"
          .metersLicense]
      fun rows => { rows with meters := [] }
    changes := [
      addConstraint (uniqueIndex "license_meters_license_name_unique" "license_meters"
        ["license_id", "name"] .meters)] },
  { first := updates ["type_drafts", "limitUsage"] fun _ => storeUsageDraft
    changes := [] },
  { first := insertsInto "license_meters"
      ["id", "license_id", "name", "balance", "created_at", "updated_at"]
      [("licenses", ["id", "limitUsage", "created_at", "type_drafts"])]
      fun pg rows => .ok (insertMeters pg rows)
    changes := [] },
  { first := creates
      ⟨"usage_ledger_entries", [text "id", text "license_id", text "meter_id", text "event_id",
        text "kind", integer "delta", integer "balance_before", integer "balance_after",
        optionalText "reason", stamped "created_at"]⟩
      [primaryKey "usage_ledger_entries_pkey" "usage_ledger_entries" "id" .ledger,
        foreignKey "usage_ledger_license_id_fkey" "usage_ledger_entries" "license_id" "licenses"
          .ledgerLicense,
        foreignKey "usage_ledger_meter_id_fkey" "usage_ledger_entries" "meter_id" "license_meters"
          .ledgerMeter]
      fun rows => { rows with ledger := [] }
    changes := [
      addConstraint (uniqueIndex "usage_ledger_license_event_unique" "usage_ledger_entries"
        ["license_id", "event_id"] .ledger),
      addConstraint (plainIndex "usage_ledger_meter_created_idx" "usage_ledger_entries"
        ["meter_id", "created_at"])] },
  { first := insertsInto "usage_ledger_entries"
      ["id", "license_id", "meter_id", "event_id", "kind", "delta", "balance_before", "balance_after",
        "reason", "created_at"]
      [("license_meters", ["id", "license_id", "balance", "created_at"])]
      fun _ rows => .ok (insertLedger rows)
    changes := [
      dropConstraintIfExists "licenses" "ApiKey_limitUsage_nonnegative",
      dropColumn "licenses" "limitUsage"] }]

def activityTables : List (Segment Rule Postgres Rows) := [
  { first := creates
      ⟨"activity_events", [text "id", text "type", text "source",
        { name := "outcome", type := "text", required := true, defaulted := true },
        optionalText "reason", optionalText "license_id", optionalText "customer_id",
        optionalText "key_prefix", optionalText "ip", optionalText "device_id", document "details",
        stamped "created_at"]⟩
      [primaryKey "activity_events_pkey" "activity_events" "id" .events]
      fun rows => { rows with events := [] }
    changes := [
      addConstraint (plainIndex "activity_events_created_at_idx" "activity_events" ["created_at"]),
      addConstraint (plainIndex "activity_events_license_created_idx" "activity_events"
        ["license_id", "created_at"]),
      addConstraint (plainIndex "activity_events_customer_created_idx" "activity_events"
        ["customer_id", "created_at"])] },
  { first := creates
      ⟨"activity_totals", [text "scope",
        { name := "scope_id", type := "text", required := true, defaulted := true }, text "type",
        { name := "count", type := "bigint", required := true, defaulted := true }]⟩
      [] fun rows => { rows with totals := [] }
    changes := [
      addConstraint (uniqueIndex "activity_totals_scope_type_unique" "activity_totals"
        ["scope", "scope_id", "type"] .totals)] },
  { first := creates
      ⟨"activity_minute_buckets", [{ name := "minute", type := "timestamp(0)", required := true },
        text "scope", { name := "scope_id", type := "text", required := true, defaulted := true },
        text "type", { name := "count", type := "bigint", required := true, defaulted := true }]⟩
      [] fun rows => { rows with buckets := [] }
    changes := [
      addConstraint (uniqueIndex "activity_minute_buckets_unique" "activity_minute_buckets"
        ["minute", "scope", "scope_id", "type"] .buckets),
      addConstraint (plainIndex "activity_minute_buckets_minute_idx" "activity_minute_buckets"
        ["minute"])] }]

def activityTotals : List (Segment Rule Postgres Rows) := [
  { first := insertsInto "activity_events"
      ["id", "type", "source", "outcome", "license_id", "customer_id", "key_prefix", "ip", "device_id",
        "details", "created_at"]
      [("AccessAttempt", ["id", "apiKeyId", "ip", "hwid", "attemptCount", "firstAttemptedAt",
          "lastAttemptedAt"]),
        ("licenses", ["id", "customer_id", "key_prefix"])]
      insertAttempts
    changes := [] },
  { first := insertsInto "activity_totals" ["scope", "scope_id", "type", "count"]
      [("AccessAttempt", ["attemptCount"])] fun _ rows => .ok (insertGlobalTotal rows)
    changes := [] },
  { first := insertsInto "activity_totals" ["scope", "scope_id", "type", "count"]
      [("AccessAttempt", ["apiKeyId", "attemptCount"])] fun _ rows => .ok (insertLicenseTotals rows)
    changes := [] },
  { first := insertsInto "activity_totals" ["scope", "scope_id", "type", "count"]
      [("AccessAttempt", ["apiKeyId", "attemptCount"]), ("licenses", ["id", "customer_id"])]
      fun _ rows => .ok (insertCustomerTotals rows)
    changes := [] }]

def activityBuckets : List (Segment Rule Postgres Rows) := [
  { first := insertsInto "activity_minute_buckets" ["minute", "scope", "scope_id", "type", "count"]
      [("AccessAttempt", ["lastAttemptedAt", "attemptCount"])]
      fun _ rows => .ok (insertGlobalBuckets rows)
    changes := [] },
  { first := insertsInto "activity_minute_buckets" ["minute", "scope", "scope_id", "type", "count"]
      [("AccessAttempt", ["lastAttemptedAt", "apiKeyId", "attemptCount"])]
      fun _ rows => .ok (insertLicenseBuckets rows)
    changes := [] },
  { first := insertsInto "activity_minute_buckets" ["minute", "scope", "scope_id", "type", "count"]
      [("AccessAttempt", ["lastAttemptedAt", "apiKeyId", "attemptCount"]),
        ("licenses", ["id", "customer_id"])]
      fun _ rows => .ok (insertCustomerBuckets rows)
    changes := [] }]

def registrations : List (Segment Rule Postgres Rows) := [
  { first := creates
      ⟨"registered_devices_v2", [text "id", text "license_id", text "ip", text "device_id",
        stamped "created_at", stamped "last_seen_at"]⟩
      [primaryKey "registered_devices_v2_pkey" "registered_devices_v2" "id" .registered,
        foreignKey "registered_devices_license_id_fkey" "registered_devices_v2" "license_id" "licenses"
          .registeredLicense]
      fun rows => { rows with registered := [] }
    changes := [] },
  { first := insertsInto "registered_devices_v2"
      ["id", "license_id", "ip", "device_id", "created_at", "last_seen_at"]
      [("KeyDeviceMapping", ["id", "apiKeyId", "registeredDeviceId", "createdAt"]),
        ("RegisteredDevice", ["id", "ip", "hwid"])]
      insertRegistered
    changes := [] },
  { first := insertsInto "activity_events"
      ["id", "type", "source", "outcome", "ip", "device_id", "details", "created_at"]
      [("RegisteredDevice", ["id", "ip", "hwid", "createdAt"]),
        ("KeyDeviceMapping", ["registeredDeviceId"])]
      fun _ rows => .ok (insertOrphans rows)
    changes := [
      dropTable "KeyDeviceMapping",
      dropTable "RegisteredDevice",
      renameTable "registered_devices_v2" "registered_devices",
      renameConstraint "registered_devices" "registered_devices_v2_pkey" "registered_devices_pkey",
      addConstraint (uniqueIndex "registered_devices_license_ip_device_unique" "registered_devices"
        ["license_id", "ip", "device_id"] .registered),
      addConstraint (plainIndex "registered_devices_license_id_idx" "registered_devices" ["license_id"]),
      dropTable "AccessAttempt"] }]

def stripe : List (Segment Rule Postgres Rows) := [
  { first := creates
      ⟨"stripe_subscription_links", [text "id", text "license_id", text "subscription_id",
        text "stripe_customer_id", text "status", timestamp "paid_through", flag "cancel_at_period_end",
        optionalText "price_id", timestamp "billing_revoked_at", timestamp "last_synced_at",
        optionalText "last_error", stamped "created_at", stamped "updated_at"]⟩
      [primaryKey "stripe_subscription_links_pkey" "stripe_subscription_links" "id" .links,
        foreignKey "stripe_subscription_links_license_id_fkey" "stripe_subscription_links" "license_id"
          "licenses" .linksLicense]
      fun rows => { rows with links := [] }
    changes := [
      addConstraint (uniqueIndex "stripe_subscription_links_license_unique" "stripe_subscription_links"
        ["license_id"] .linksLicense),
      addConstraint (uniqueIndex "stripe_subscription_links_subscription_unique"
        "stripe_subscription_links" ["subscription_id"] .linksSubscription)] },
  { first := creates
      ⟨"stripe_webhook_events", [text "event_id", text "type", optionalText "object_id",
        { name := "status", type := "stripe_webhook_status", required := true, defaulted := true },
        count "attempts", stamped "next_attempt_at", { name := "payload", type := "jsonb", required := true },
        optionalText "last_error", stamped "received_at", timestamp "processed_at"]⟩
      [primaryKey "stripe_webhook_events_pkey" "stripe_webhook_events" "event_id" .webhooks]
      fun rows => { rows with webhooks := [] }
    changes := [
      addConstraint (plainIndex "stripe_webhook_events_due_idx" "stripe_webhook_events"
        ["status", "next_attempt_at"]),
      dropType "KeyType"] }]

/-- The migration in its order. -/
def overhaul : List (Segment Rule Postgres Rows) :=
  customers ++ licenses ++ allowlists ++ meters ++ activityTables ++ activityTotals ++ activityBuckets ++
    registrations ++ stripe

end Statements

end Keyzori.Migration
