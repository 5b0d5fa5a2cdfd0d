import Keyzori.Domain.Entities

/-! The rows that the overhaul of the schema works on. A row has the columns of the old
table and of the new one, and a column that its table does not have at the moment, as
the rows of a table that is not there, may hold anything. The rules are what the
constraints of either schema ask of the rows. -/

namespace Keyzori.Migration

inductive KeyType
  | perpetual
  | subscription
  | usage
  deriving DecidableEq, Repr

/-- `User`, then `customers`. -/
structure CustomerRow where
  id : String
  email : String
  name : String
  metadata : String
  createdAt : Instant
  updatedAt : Instant

/-- `ApiKey`, then `licenses`. The column `type` is a `KeyType` before it is a `LicenseType`. -/
structure LicenseRow where
  id : String
  keyHash : String
  keyPrefix : String
  customerId : String
  keyType : KeyType
  type : LicenseType
  maxIps : Int
  maxDevices : Int
  maxSessions : Int
  limitUsage : Int
  trialDurationMinutes : Int
  trialStartedAt : Option Instant
  metadata : String
  expiresAt : Option Instant
  revoked : Bool
  createdAt : Instant
  typeDrafts : Json
  manualRevokedAt : Option Instant
  manualRevocationReason : Option String
  updatedAt : Instant
  sessionRevision : Int

/-- `IpWhitelist`, then `license_ip_allowlist_entries`. -/
structure IpEntryRow where
  id : String
  licenseId : String
  ip : String
  createdAt : Instant

/-- `HwidWhitelist`, then `license_device_allowlist_entries`. -/
structure DeviceEntryRow where
  id : String
  licenseId : String
  deviceId : String
  createdAt : Instant

structure MappingRow where
  id : String
  apiKeyId : String
  registeredDeviceId : String
  createdAt : Instant

structure DeviceRow where
  id : String
  ip : String
  hwid : String
  createdAt : Instant

structure AttemptRow where
  id : String
  apiKeyId : String
  ip : String
  hwid : String
  attemptCount : Int
  firstAttemptedAt : Instant
  lastAttemptedAt : Instant

structure MeterRow where
  id : String
  licenseId : String
  name : String
  balance : Int
  archivedAt : Option Instant
  createdAt : Instant
  updatedAt : Instant

structure LedgerRow where
  id : String
  licenseId : String
  meterId : String
  eventId : String
  kind : String
  delta : Int
  balanceBefore : Int
  balanceAfter : Int
  reason : Option String
  createdAt : Instant

structure EventRow where
  id : String
  type : String
  source : String
  outcome : String
  reason : Option String
  licenseId : Option String
  customerId : Option String
  keyPrefix : Option String
  ip : Option String
  deviceId : Option String
  details : Json
  createdAt : Instant

structure TotalRow where
  scope : String
  scopeId : String
  type : String
  count : Int

structure BucketRow where
  minute : Instant
  scope : String
  scopeId : String
  type : String
  count : Int

/-- `registered_devices_v2`, then `registered_devices`. -/
structure RegisteredRow where
  id : String
  licenseId : String
  ip : String
  deviceId : String
  createdAt : Instant
  lastSeenAt : Instant

structure Rows where
  customers : List CustomerRow
  licenses : List LicenseRow
  ipEntries : List IpEntryRow
  deviceEntries : List DeviceEntryRow
  mappings : List MappingRow
  devices : List DeviceRow
  attempts : List AttemptRow
  meters : List MeterRow
  ledger : List LedgerRow
  events : List EventRow
  totals : List TotalRow
  buckets : List BucketRow
  registered : List RegisteredRow
  links : List StripeSubscriptionLink
  webhooks : List StripeWebhookEvent

inductive Table
  | customers
  | licenses
  | ipEntries
  | deviceEntries
  | mappings
  | devices
  | attempts
  | meters
  | ledger
  | events
  | registered
  | links
  | webhooks
  deriving DecidableEq, Repr

inductive Unique
  | customersEmail
  | licensesKeyHash
  | ipEntries
  | deviceEntries
  | mappings
  | devices
  | attempts
  | meters
  | ledger
  | totals
  | buckets
  | registered
  | linksLicense
  | linksSubscription
  deriving DecidableEq, Repr

inductive Reference
  | licensesCustomer
  | ipEntriesLicense
  | deviceEntriesLicense
  | mappingsLicense
  | mappingsDevice
  | attemptsLicense
  | metersLicense
  | ledgerLicense
  | ledgerMeter
  | registeredLicense
  | linksLicense
  deriving DecidableEq, Repr

inductive Check
  | maxIps
  | maxDevices
  | maxSessions
  | limitUsage
  | trialDuration
  | sessionRevision
  | subscriptionExpiry
  | trialRequired
  | balance
  deriving DecidableEq, Repr

inductive Rule
  | key (table : Table)
  | unique (keys : Unique)
  | reference (reference : Reference)
  | check (check : Check)
  deriving DecidableEq, Repr

namespace Rows

variable (rows : Rows)

def ids : Table → List String
  | .customers => rows.customers.map CustomerRow.id
  | .licenses => rows.licenses.map LicenseRow.id
  | .ipEntries => rows.ipEntries.map IpEntryRow.id
  | .deviceEntries => rows.deviceEntries.map DeviceEntryRow.id
  | .mappings => rows.mappings.map MappingRow.id
  | .devices => rows.devices.map DeviceRow.id
  | .attempts => rows.attempts.map AttemptRow.id
  | .meters => rows.meters.map MeterRow.id
  | .ledger => rows.ledger.map LedgerRow.id
  | .events => rows.events.map EventRow.id
  | .registered => rows.registered.map RegisteredRow.id
  | .links => rows.links.map StripeSubscriptionLink.id
  | .webhooks => rows.webhooks.map StripeWebhookEvent.eventId

def keys : Unique → List (Option Instant × List String)
  | .customersEmail => rows.customers.map fun row => (none, [row.email])
  | .licensesKeyHash => rows.licenses.map fun row => (none, [row.keyHash])
  | .ipEntries => rows.ipEntries.map fun row => (none, [row.licenseId, row.ip])
  | .deviceEntries => rows.deviceEntries.map fun row => (none, [row.licenseId, row.deviceId])
  | .mappings => rows.mappings.map fun row => (none, [row.apiKeyId, row.registeredDeviceId])
  | .devices => rows.devices.map fun row => (none, [row.ip, row.hwid])
  | .attempts => rows.attempts.map fun row => (none, [row.apiKeyId, row.ip, row.hwid])
  | .meters => rows.meters.map fun row => (none, [row.licenseId, row.name])
  | .ledger => rows.ledger.map fun row => (none, [row.licenseId, row.eventId])
  | .totals => rows.totals.map fun row => (none, [row.scope, row.scopeId, row.type])
  | .buckets => rows.buckets.map fun row => (some row.minute, [row.scope, row.scopeId, row.type])
  | .registered => rows.registered.map fun row => (none, [row.licenseId, row.ip, row.deviceId])
  | .linksLicense => rows.links.map fun row => (none, [row.licenseId.text])
  | .linksSubscription => rows.links.map fun row => (none, [row.subscriptionId])

def foreign : Reference → List String
  | .licensesCustomer => rows.licenses.map LicenseRow.customerId
  | .ipEntriesLicense => rows.ipEntries.map IpEntryRow.licenseId
  | .deviceEntriesLicense => rows.deviceEntries.map DeviceEntryRow.licenseId
  | .mappingsLicense => rows.mappings.map MappingRow.apiKeyId
  | .mappingsDevice => rows.mappings.map MappingRow.registeredDeviceId
  | .attemptsLicense => rows.attempts.map AttemptRow.apiKeyId
  | .metersLicense => rows.meters.map MeterRow.licenseId
  | .ledgerLicense => rows.ledger.map LedgerRow.licenseId
  | .ledgerMeter => rows.ledger.map LedgerRow.meterId
  | .registeredLicense => rows.registered.map RegisteredRow.licenseId
  | .linksLicense => rows.links.map fun row => row.licenseId.text

end Rows

def Reference.target : Reference → Table
  | licensesCustomer => .customers
  | mappingsDevice => .devices
  | ledgerMeter => .meters
  | _ => .licenses

def subscriptionExpiryRequired (row : LicenseRow) : Bool :=
  row.type ≠ .subscription || row.expiresAt.isSome

def trialDurationRequired (row : LicenseRow) : Bool :=
  row.type ≠ .trial || row.trialDurationMinutes > 0

def Check.row (row : LicenseRow) : Check → Bool
  | maxIps => row.maxIps ≥ 0
  | maxDevices => row.maxDevices ≥ 0
  | maxSessions => row.maxSessions ≥ 0
  | limitUsage => row.limitUsage ≥ 0
  | trialDuration => row.trialDurationMinutes ≥ 0
  | sessionRevision => row.sessionRevision ≥ 0
  | subscriptionExpiry => subscriptionExpiryRequired row
  | trialRequired => trialDurationRequired row
  | balance => true

def Check.passes (rows : Rows) : Check → Bool
  | balance => rows.meters.all fun row => row.balance ≥ 0
  | check => rows.licenses.all fun row => check.row row

def holds (rows : Rows) : Rule → Bool
  | .key table => (rows.ids table).Nodup
  | .unique keys => (rows.keys keys).Nodup
  | .reference reference => (rows.foreign reference).all fun id => id ∈ rows.ids reference.target
  | .check check => check.passes rows

end Keyzori.Migration
