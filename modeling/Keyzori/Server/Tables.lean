import Keyzori.Domain.Entities
import Keyzori.Meters.Repository
import Mathlib.Data.List.Dedup

/-! The tables of PostgreSQL as the repositories read and write them. Rows that
belong to one license are kept together, since deleting it cascades to all of
them; a write is what one statement makes of them. -/

namespace Keyzori

/-- A snapshot as the server got it, with its place in the order of all fetches. -/
structure FetchedSnapshot where
  snapshot : StripeSubscriptionSnapshot
  fetchedAt : Nat
  deriving DecidableEq

structure LicenseData where
  row : StoredLicense
  link : Option StripeSubscriptionLink
  devices : List RegisteredDevice
  allowedIps : List String
  allowedDevices : List String
  meters : MeterTable
  deriving DecidableEq

def LicenseData.license (data : LicenseData) : License :=
  toDomainLicense data.row (data.link.bind StripeSubscriptionLink.billingRevokedAt)

namespace LicenseData

variable (data : LicenseData)

def deviceKeys : List String := data.devices.map RegisteredDevice.id

def linkKeys : List String := data.link.toList.map StripeSubscriptionLink.id

def meterKeys : List String := data.meters.meters.map LicenseMeter.id

def entryKeys : List String := data.meters.ledger.map UsageLedgerEntry.id

end LicenseData

/-- `ids` are the keys of all license rows there ever were. -/
structure Tables where
  customers : List String
  ids : List LicenseId
  licenses : LicenseId → Option LicenseData
  events : List StripeWebhookEvent

/-- `LicenseUpdate`: a field that is `undefined` is `none`. -/
structure LicenseUpdate where
  customerId : Option String := none
  type : Option LicenseType := none
  maxIps : Option Int := none
  maxDevices : Option Int := none
  maxSessions : Option Int := none
  trialDurationMinutes : Option Int := none
  trialStartedAt : Option (Option Instant) := none
  metadata : Option String := none
  expiresAt : Option (Option Instant) := none
  typeDrafts : Option LicenseTypeDrafts := none
  manualRevokedAt : Option (Option Instant) := none
  manualRevocationReason : Option (Option String) := none
  deriving DecidableEq

structure StripeSubscriptionLinkUpdate where
  stripeCustomerId : String
  status : String
  paidThrough : Option Instant
  cancelAtPeriodEnd : Bool
  priceId : Option String
  billingRevokedAt : Option Instant
  lastSyncedAt : Instant
  lastError : Option String
  deriving DecidableEq

inductive DeviceFilter
  | all
  | ip (address : String)
  | device (deviceId : String)
  deriving DecidableEq, Repr

def DeviceFilter.selects : DeviceFilter → RegisteredDevice → Bool
  | .all, _ => true
  | .ip address, row => row.ip = address
  | .device deviceId, row => row.deviceId = deviceId

def nextLicenseUpdatedAt (now : Instant) (row : StoredLicense) : Instant := max now (row.updatedAt + 1)

def LicenseUpdate.apply (data : LicenseUpdate) (row : StoredLicense) : StoredLicense :=
  { row with
    customerId := data.customerId.getD row.customerId
    type := data.type.getD row.type
    maxIps := data.maxIps.getD row.maxIps
    maxDevices := data.maxDevices.getD row.maxDevices
    maxSessions := data.maxSessions.getD row.maxSessions
    trialDurationMinutes := data.trialDurationMinutes.getD row.trialDurationMinutes
    trialStartedAt := data.trialStartedAt.getD row.trialStartedAt
    metadata := data.metadata.getD row.metadata
    expiresAt := data.expiresAt.getD row.expiresAt
    typeDrafts := data.typeDrafts.getD row.typeDrafts
    manualRevokedAt := data.manualRevokedAt.getD row.manualRevokedAt
    manualRevocationReason := data.manualRevocationReason.getD row.manualRevocationReason }

def StripeSubscriptionLinkUpdate.apply (data : StripeSubscriptionLinkUpdate) (now : Instant)
    (link : StripeSubscriptionLink) : StripeSubscriptionLink :=
  { link with
    stripeCustomerId := data.stripeCustomerId
    status := data.status
    paidThrough := data.paidThrough
    cancelAtPeriodEnd := data.cancelAtPeriodEnd
    priceId := data.priceId
    billingRevokedAt := data.billingRevokedAt
    lastSyncedAt := some data.lastSyncedAt
    lastError := data.lastError
    updatedAt := now }

/-- One statement on the rows of a license that exists. The statements that
store a snapshot name the fetch it came from. -/
inductive Write
  | updateLicense (data : LicenseUpdate)
  | updateWithSessionInvalidation (data : LicenseUpdate)
  | incrementSessionRevision
  | rotateKey (keyHash keyPrefix : String)
  | startTrial (startedAt : Instant)
  | meterDraft (meterNames : List String)
  | setExpiresAt (paidThrough : Instant)
  | insertDevice (device : RegisteredDevice)
  | touchDevice (id : String) (seenAt : Instant)
  | deleteDevices (filter : DeviceFilter)
  | insertLink (link : StripeSubscriptionLink) (fetched : FetchedSnapshot)
  | updateLink (data : StripeSubscriptionLinkUpdate) (fetched : FetchedSnapshot)
  | deleteLink
  | allowIp (ip : String)
  | removeAllowedIp (ip : String)
  | allowDevice (deviceId : String)
  | removeAllowedDevice (deviceId : String)
  | meters (table : MeterTable)

def Write.applyRow (row : StoredLicense) : Write → Option StoredLicense
  | updateLicense data => some (data.apply row)
  | updateWithSessionInvalidation data =>
      some { data.apply row with sessionRevision := row.sessionRevision + 1 }
  | incrementSessionRevision => some { row with sessionRevision := row.sessionRevision + 1 }
  | rotateKey keyHash keyPrefix =>
      some { row with keyHash, keyPrefix, sessionRevision := row.sessionRevision + 1 }
  | startTrial startedAt => some { row with trialStartedAt := some startedAt }
  | meterDraft meterNames =>
      some { row with typeDrafts := { row.typeDrafts with metered := some meterNames } }
  | setExpiresAt paidThrough => some { row with expiresAt := some paidThrough }
  | _ => none

def insertDevice (device : RegisteredDevice) (devices : List RegisteredDevice) :
    List RegisteredDevice :=
  if devices.any fun stored => stored.ip = device.ip && stored.deviceId = device.deviceId then
    devices.map fun stored =>
      if stored.ip = device.ip && stored.deviceId = device.deviceId then
        { stored with lastSeenAt := device.lastSeenAt }
      else stored
  else devices ++ [device]

def Write.applyDevices (devices : List RegisteredDevice) : Write → List RegisteredDevice
  | .insertDevice device => Keyzori.insertDevice device devices
  | touchDevice id seenAt => devices.map fun stored =>
      if stored.id = id then { stored with lastSeenAt := seenAt } else stored
  | deleteDevices filter => devices.filter fun stored => !filter.selects stored
  | _ => devices

def Write.applyLink (now : Instant) (link : Option StripeSubscriptionLink) :
    Write → Option StripeSubscriptionLink
  | insertLink inserted _ => some inserted
  | updateLink data _ => link.map (data.apply now)
  | deleteLink => none
  | _ => link

def insertNew (value : String) (values : List String) : List String :=
  if value ∈ values then values else values ++ [value]

def Write.applyAllowedIps (allowed : List String) : Write → List String
  | allowIp ip => insertNew ip allowed
  | removeAllowedIp ip => allowed.filter fun stored => stored ≠ ip
  | _ => allowed

def Write.applyAllowedDevices (allowed : List String) : Write → List String
  | allowDevice deviceId => insertNew deviceId allowed
  | removeAllowedDevice deviceId => allowed.filter fun stored => stored ≠ deviceId
  | _ => allowed

def Write.applyMeters (stored : MeterTable) : Write → MeterTable
  | meters table => table
  | _ => stored

def Write.apply (now : Instant) (data : LicenseData) (write : Write) : LicenseData :=
  { row := match write.applyRow data.row with
      | some row => { row with updatedAt := nextLicenseUpdatedAt now data.row }
      | none => data.row
    link := write.applyLink now data.link
    devices := write.applyDevices data.devices
    allowedIps := write.applyAllowedIps data.allowedIps
    allowedDevices := write.applyAllowedDevices data.allowedDevices
    meters := write.applyMeters data.meters }

def applyWrites (now : Instant) (writes : List Write) (data : LicenseData) : LicenseData :=
  writes.foldl (Write.apply now) data

/-- Whether a statement locks the license row, or the link row. -/
def Write.locksRow (write : Write) : Bool :=
  match write with
  | updateLicense _ | updateWithSessionInvalidation _ | incrementSessionRevision | rotateKey _ _
  | startTrial _ | meterDraft _ | setExpiresAt _ => true
  | _ => false

def Write.locksLink (write : Write) : Bool :=
  match write with
  | insertLink _ _ | updateLink _ _ | deleteLink => true
  | _ => false

namespace Tables

variable (tables : Tables)

def row (id : LicenseId) : Option StoredLicense := (tables.licenses id).map LicenseData.row

def license (id : LicenseId) : Option License :=
  (tables.licenses id).map fun data =>
    toDomainLicense data.row (data.link.bind StripeSubscriptionLink.billingRevokedAt)

def allLicenses : List LicenseData := tables.ids.filterMap tables.licenses

def findByKeyHash (keyHash : String) : Option License :=
  (tables.allLicenses.find? fun data => data.row.keyHash = keyHash).map fun data =>
    toDomainLicense data.row (data.link.bind StripeSubscriptionLink.billingRevokedAt)

def link (id : LicenseId) : Option StripeSubscriptionLink :=
  (tables.licenses id).bind LicenseData.link

def findBySubscriptionId (subscriptionId : String) : Option StripeSubscriptionLink :=
  (tables.allLicenses.filterMap LicenseData.link).find? fun link =>
    link.subscriptionId = subscriptionId

def devices (id : LicenseId) : List RegisteredDevice :=
  (tables.licenses id).elim [] LicenseData.devices

def allowedIps (id : LicenseId) : List String := (tables.licenses id).elim [] LicenseData.allowedIps

def allowedDevices (id : LicenseId) : List String :=
  (tables.licenses id).elim [] LicenseData.allowedDevices

def meters (id : LicenseId) : MeterRegion := (tables.licenses id).map LicenseData.meters

def uses (keys : LicenseData → List String) (key : String) : Bool :=
  tables.allLicenses.any fun data => key ∈ keys data

def meterViolation (id : LicenseId) (table : MeterTable) : Option String :=
  if table.meters.any fun meter => meter.id ∉ (tables.meters id).meters.map LicenseMeter.id &&
      tables.uses LicenseData.meterKeys meter.id then
    some "license_meters_pkey"
  else if table.ledger.any fun entry => entry.id ∉ (tables.meters id).ledger.map UsageLedgerEntry.id &&
      tables.uses LicenseData.entryKeys entry.id then
    some "usage_ledger_entries_pkey"
  else none

/-- The constraints and column ranges that the writes of a transaction can violate. -/
def violation (id : LicenseId) : Write → Option String
  | .updateLicense data => match data.customerId with
    | some customerId =>
        if customerId ∈ tables.customers then none else some "licenses_customer_id_fkey"
    | none => none
  | .updateWithSessionInvalidation _ | .incrementSessionRevision | .rotateKey _ _ =>
      if (tables.row id).any fun row => decide (maxLicenseLimit ≤ row.sessionRevision) then
        some "integer out of range"
      else none
  | .insertDevice device =>
      if (tables.devices id).any fun stored => stored.ip = device.ip && stored.deviceId = device.deviceId then
        none
      else if tables.uses LicenseData.deviceKeys device.id then some "registered_devices_pkey"
      else none
  | .insertLink link _ =>
      if tables.uses LicenseData.linkKeys link.id then some "stripe_subscription_links_pkey"
      else if (tables.link id).isSome then some "stripe_subscription_links_license_unique"
      else if (tables.findBySubscriptionId link.subscriptionId).isSome then
        some "stripe_subscription_links_subscription_unique"
      else none
  | .meters table => tables.meterViolation id table
  | _ => none

end Tables

def countDistinct (values : List String) : Nat := values.dedup.length

end Keyzori
