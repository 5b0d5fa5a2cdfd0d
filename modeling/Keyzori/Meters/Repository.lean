import Keyzori.Domain.Values
import Keyzori.Library.LockedTransactions

/-! The meter transactions of the two repositories, statement by statement.
`pg_advisory_xact_lock('meter:<id>')` is the lock of the region, and the
transaction that creates a license works on an id nobody else knows yet. The
int4 range and the balance check of the columns are left out of the tables:
that no write needs them is a result, not an assumption. -/

namespace Keyzori

open LockedTransactions

inductive MeterLedgerKind
  | create
  | consume
  | topUp
  | adjustment
  | archive
  deriving DecidableEq, Repr

structure LicenseMeter where
  id : String
  licenseId : LicenseId
  name : String
  balance : Int
  archivedAt : Option Instant
  createdAt : Instant
  updatedAt : Instant
  deriving DecidableEq

structure UsageLedgerEntry where
  id : String
  licenseId : LicenseId
  meterId : String
  eventId : String
  kind : MeterLedgerKind
  delta : Int
  balanceBefore : Int
  balanceAfter : Int
  reason : Option String
  createdAt : Instant
  deriving DecidableEq

structure NewLicenseMeter where
  name : String
  balance : Int
  reason : String
  deriving DecidableEq, Repr

/-- The meters and the ledger of one license, rows in insertion order. -/
structure MeterTable where
  meters : List LicenseMeter
  ledger : List UsageLedgerEntry
  deriving DecidableEq

/-- `none` until the license row exists, so foreign keys can be checked. -/
abbrev MeterRegion := Option MeterTable

abbrev MeterScript (α : Type) := Script MeterRegion Failure α

/-- What a transaction draws from outside: the clock and `crypto.randomUUID`. -/
structure Draw where
  now : Instant
  uuid : Nat → String

namespace MeterRegion

def meters (region : MeterRegion) : List LicenseMeter := region.elim [] MeterTable.meters

def ledger (region : MeterRegion) : List UsageLedgerEntry := region.elim [] MeterTable.ledger

def activeMeters (region : MeterRegion) : List LicenseMeter :=
  region.meters.filter fun meter => meter.archivedAt.isNone

def meterNamed (name : String) (region : MeterRegion) : Option LicenseMeter :=
  region.meters.find? fun meter => meter.name = name

/-- The ledger row of an event id joined with its meter, `limit 1`. -/
def ledgerEvent (eventId : String) (region : MeterRegion) :
    Option (UsageLedgerEntry × LicenseMeter) :=
  region.ledger.findSome? fun entry =>
    if entry.eventId = eventId then
      (region.meters.find? fun meter => meter.id = entry.meterId).map fun meter => (entry, meter)
    else none

def insertMeter (meter : LicenseMeter) : MeterRegion → Except Failure (MeterRegion × LicenseMeter)
  | none => .error (.internal "license_meters_license_id_fkey")
  | some table =>
      if table.meters.any fun stored => stored.id = meter.id then
        .error (.internal "license_meters_pkey")
      else if table.meters.any fun stored => stored.name = meter.name then
        .error (.internal "license_meters_license_name_unique")
      else .ok (some { table with meters := table.meters ++ [meter] }, meter)

def insertLedgerEntry (entry : UsageLedgerEntry) :
    MeterRegion → Except Failure (MeterRegion × UsageLedgerEntry)
  | none => .error (.internal "usage_ledger_license_id_fkey")
  | some table =>
      if table.ledger.any fun stored => stored.id = entry.id then
        .error (.internal "usage_ledger_entries_pkey")
      else if table.ledger.any fun stored => stored.eventId = entry.eventId then
        .error (.internal "usage_ledger_license_event_unique")
      else .ok (some { table with ledger := table.ledger ++ [entry] }, entry)

def insertRows {α : Type} (insert : α → MeterRegion → Except Failure (MeterRegion × α)) :
    List α → MeterRegion → Except Failure (MeterRegion × List α)
  | [], region => .ok (region, [])
  | row :: rows, region => do
      let (region, inserted) ← insert row region
      let (region, others) ← insertRows insert rows region
      return (region, inserted :: others)

def updateMeters (chosen : LicenseMeter → Bool) (set : LicenseMeter → LicenseMeter)
    (region : MeterRegion) : Except Failure (MeterRegion × List LicenseMeter) :=
  .ok (region.map fun table =>
      { table with meters := table.meters.map fun meter => if chosen meter then set meter else meter },
    (region.meters.filter chosen).map set)

end MeterRegion

open MeterRegion

inductive UsageConsumptionResult
  | consumed (meter : LicenseMeter) (entry : UsageLedgerEntry)
  | replayed (meter : LicenseMeter) (entry : UsageLedgerEntry)
  | conflict
  | notFound
  | archived
  | exhausted
  deriving DecidableEq

inductive MeterAdjustmentResult
  | adjusted (meter : LicenseMeter) (entry : UsageLedgerEntry)
  | notFound
  | archived
  | outOfRange
  deriving DecidableEq

def operatorEvent (uuid : String) : String := "operator:" ++ uuid

def createMeter (licenseId : LicenseId) (name : String) (balance : Int) (reason : String)
    (draw : Draw) : MeterScript LicenseMeter := do
  let meter ← .execute (insertMeter
    ⟨draw.uuid 0, licenseId, name, balance, none, draw.now, draw.now⟩)
  let _ ← .execute (insertLedgerEntry
    ⟨draw.uuid 1, licenseId, meter.id, operatorEvent (draw.uuid 2), .create, balance, 0, balance,
      some reason, draw.now⟩)
  return meter

/-- `DrizzleMeterRepository.archiveMeter`. The type is what the row-locked
select of the license returned, `none` when there is no such row. -/
def archiveMeter (licenseId : LicenseId) (name reason : String) (licenseType : Option LicenseType)
    (draw : Draw) : MeterScript (Option LicenseMeter) := do
  match licenseType with
  | none => return none
  | some type =>
      let active ← .query activeMeters
      let target := active.find? fun meter => meter.name = name
      if type = .metered ∧ target.isSome ∧ active.length = 1 then return target
      let rows ← .execute (updateMeters
        (fun meter => meter.name = name && meter.archivedAt.isNone)
        (fun meter => { meter with archivedAt := some draw.now, updatedAt := draw.now }))
      match rows.head? with
      | none => .query (meterNamed name)
      | some archived =>
          let _ ← .execute (insertLedgerEntry
            ⟨draw.uuid 0, licenseId, archived.id, operatorEvent (draw.uuid 1), .archive, 0,
              archived.balance, archived.balance, some reason, draw.now⟩)
          return some archived

def consumeMeter (licenseId : LicenseId) (name : String) (units : Int) (eventIdHash : String)
    (draw : Draw) : MeterScript UsageConsumptionResult := do
  match ← .query (ledgerEvent eventIdHash) with
  | some (entry, meter) =>
      if entry.kind ≠ .consume ∨ entry.delta ≠ -units ∨ meter.name ≠ name then return .conflict
      return .replayed { meter with balance := entry.balanceAfter } entry
  | none =>
      match ← .query (meterNamed name) with
      | none => return .notFound
      | some meter =>
          if meter.archivedAt.isSome then return .archived
          let rows ← .execute (updateMeters
            (fun stored => stored.id = meter.id && units ≤ stored.balance)
            (fun stored => { stored with balance := stored.balance - units, updatedAt := draw.now }))
          match rows.head? with
          | none => return .exhausted
          | some updated =>
              let entry ← .execute (insertLedgerEntry
                ⟨draw.uuid 0, licenseId, meter.id, eventIdHash, .consume, -units,
                  updated.balance + units, updated.balance, none, draw.now⟩)
              return .consumed updated entry

def adjustMeter (licenseId : LicenseId) (name : String) (delta : Int) (reason : String)
    (kind : MeterLedgerKind) (draw : Draw) : MeterScript MeterAdjustmentResult := do
  match ← .query (meterNamed name) with
  | none => return .notFound
  | some meter =>
      if meter.archivedAt.isSome then return .archived
      let rows ← .execute (updateMeters
        (fun stored => stored.id = meter.id &&
          if delta > 0 then stored.balance ≤ maxLicenseLimit - delta else stored.balance ≥ -delta)
        (fun stored => { stored with balance := stored.balance + delta, updatedAt := draw.now }))
      match rows.head? with
      | none => return .outOfRange
      | some updated =>
          let entry ← .execute (insertLedgerEntry
            ⟨draw.uuid 0, licenseId, meter.id, operatorEvent (draw.uuid 1), kind, delta,
              updated.balance - delta, updated.balance, some reason, draw.now⟩)
          return .adjusted updated entry

/-- The meter part of `DrizzleLicenseRepository.create`: all meters in one
statement, then all ledger rows in one. -/
def createLicenseMeters (licenseId : LicenseId) (meters : List NewLicenseMeter) (draw : Draw) :
    MeterScript Unit := do
  let _ ← .execute (fun region => match region with
    | some _ => .error (.internal "licenses_pkey")
    | none => .ok (some ⟨[], []⟩, ()))
  if meters.isEmpty then return ()
  let stored := meters.mapIdx fun index meter =>
    (meter, ({ id := draw.uuid (3 * index), licenseId, name := meter.name, balance := meter.balance,
               archivedAt := none, createdAt := draw.now, updatedAt := draw.now } : LicenseMeter))
  let _ ← .execute (insertRows insertMeter (stored.map Prod.snd))
  let _ ← .execute (insertRows insertLedgerEntry (stored.mapIdx fun index row =>
    { id := draw.uuid (3 * index + 1), licenseId, meterId := row.2.id,
      eventId := operatorEvent (draw.uuid (3 * index + 2)), kind := .create,
      delta := row.2.balance, balanceBefore := 0, balanceAfter := row.2.balance,
      reason := some row.1.reason, createdAt := draw.now }))
  return ()

/-- The loop of `insertNewMeters`; `existing` is its map by name, newest first. -/
def insertNewMetersFrom (licenseId : LicenseId) (draw : Draw) :
    Nat → List NewLicenseMeter → List LicenseMeter → MeterScript Unit
  | _, [], _ => return ()
  | index, meter :: meters, existing =>
      match existing.find? fun stored => stored.name = meter.name with
      | some stored =>
          if stored.archivedAt.isSome ∨ stored.balance ≠ meter.balance then
            .rollback (.domain (conflictError s!"Meter {meter.name} already exists"))
          else insertNewMetersFrom licenseId draw (index + 1) meters existing
      | none => do
          let inserted ← .execute (insertMeter
            ⟨draw.uuid (3 * index), licenseId, meter.name, meter.balance, none, draw.now, draw.now⟩)
          let _ ← .execute (insertLedgerEntry
            ⟨draw.uuid (3 * index + 1), licenseId, inserted.id,
              operatorEvent (draw.uuid (3 * index + 2)), .create, meter.balance, 0, meter.balance,
              some meter.reason, draw.now⟩)
          insertNewMetersFrom licenseId draw (index + 1) meters (inserted :: existing)

def insertNewMeters (licenseId : LicenseId) (meters : List NewLicenseMeter) (draw : Draw) :
    MeterScript Unit := do
  if meters.isEmpty then return ()
  let existing ← .query MeterRegion.meters
  insertNewMetersFrom licenseId draw 0 meters existing.reverse

end Keyzori
