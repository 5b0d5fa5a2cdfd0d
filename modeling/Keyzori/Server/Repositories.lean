import Keyzori.Meters.Service
import Keyzori.Server.World
import Mathlib.Data.List.Lex

/-! The repositories as programs of acts. A transaction keeps its writes to
itself and hands them to its commit; a statement that throws before it rolls the
transaction back. -/

namespace Keyzori

open Interleaving

/-- Functions that no result depends on: hashes, the normal form of addresses,
whether Stripe is configured, and the retry delays of the webhook worker. -/
structure Host where
  hashLicenseKey : String → String
  hashBinding : SessionBinding → String
  hashUsageEventId : String → String
  normalizeIpAddress : String → Option String
  stripeRepo : Bool
  baseDelayMs : Nat
  maxDelayMs : Nat

def perform (act : Act) : Server act.Val := Prog.call act

def ofExcept {α : Type} (result : Except Failure α) : Server α := Prog.ofExcept result

def draw : Server Draw := perform .draw

def query {α : Type} (read : Tables → α) : Server α := perform (.query read)

def lock (lock : Lock) : Server Unit := perform (.lock lock)

/-- A row `for update`, or the row that an `update` of a transaction matches. -/
def lockRow (id : LicenseId) : Server (Option StoredLicense) := perform (.lockRow id)

def commit (id : LicenseId) (expected : Option Instant) (writes : List Write) :
    Server (Option Written) :=
  perform (.commit id expected writes)

def orRollback {α : Type} (body : Server α) : Server α :=
  tryCatch body fun error => do
    perform .rollback
    throw error

def execute (writes : List Write) : Server (List Write) := do
  query (fun _ => ())
  return writes

def firstOrThrow {α : Type} (row : Option α) (action : String) : Server α :=
  match row with
  | some row => pure row
  | none => throw (.internal s!"Database returned no row after {action}.")

/-- The order of `Array.prototype.sort` on strings. -/
def codeUnits (value : String) : List Nat :=
  value.toList.flatMap fun char =>
    if char.toNat < 0x10000 then [char.toNat]
    else [0xD800 + (char.toNat - 0x10000) / 0x400, 0xDC00 + (char.toNat - 0x10000) % 0x400]

def sortNames (names : List String) : List String :=
  names.insertionSort fun first second => codeUnits first ≤ codeUnits second

structure RevealedLicense extends License where
  licenseKey : String
  deriving DecidableEq

structure LicenseUpdateOptions where
  confirmStripeUnlink : Bool := false
  expectedUpdatedAt : Option Instant := none
  manualExpiresAtUpdate : Bool := false
  newMeters : List NewLicenseMeter := []

def licenseKeyPrefix (licenseKey : String) : String := String.ofList (licenseKey.toList.take 16)

def concurrentChange (retry : String) : Failure :=
  .domain (conflictError s!"License changed concurrently; reload it and retry {retry}")

namespace LicenseRepository

def create (host : Host) (licenseKey : String) (data : NewLicense) : Server RevealedLicense := do
  let id ← perform .licenseId
  let draw ← draw
  let table ← ofExcept (((createLicenseMeters id data.meters draw).run none).map fun written =>
    written.1.getD ⟨[], []⟩)
  let stored ← perform (.insertLicense id (host.hashLicenseKey licenseKey)
    (licenseKeyPrefix licenseKey) data table)
  return ⟨toDomainLicense stored none, licenseKey⟩

def findById (id : LicenseId) : Server (Option License) := perform (.findLicense id)

def withAllowlists (license : License) : Server LicenseWithAllowlists := do
  let allowedIps ← query (fun tables => tables.allowedIps license.id)
  let allowedDevices ← query (fun tables => tables.allowedDevices license.id)
  return ⟨license, allowedIps, allowedDevices⟩

def findByIdWithAllowlists (id : LicenseId) : Server (Option LicenseWithAllowlists) := do
  match ← findById id with
  | none => return none
  | some license => return some (← withAllowlists license)

def findByLicenseKeyWithAllowlists (host : Host) (licenseKey : String) :
    Server (Option LicenseWithAllowlists) := do
  match ← perform (.findByKeyHash (host.hashLicenseKey licenseKey)) with
  | none => return none
  | some license => return some (← withAllowlists license)

def reload (id : LicenseId) (message : String) : Server License := do
  match ← findById id with
  | some license => return license
  | none => throw (.internal message)

def insertNewMeters (id : LicenseId) (meters : List NewLicenseMeter) : Server (List Write) :=
  if meters.isEmpty then pure []
  else do
    let draw ← draw
    let region ← query (fun tables => tables.meters id)
    let written ← ofExcept ((Keyzori.insertNewMeters id meters draw).run region)
    return (written.1.map Write.meters).toList

def requireActiveMeter (id : LicenseId) (data : LicenseUpdate) (inserted : List Write) :
    Server Unit :=
  if data.type = some .metered then do
    let region ← query (fun tables => tables.meters id)
    let region := region.map fun table => inserted.foldl Write.applyMeters table
    if (MeterRegion.activeMeters region).isEmpty then
      throw (.domain ⟨"Metered licenses require at least one active meter", 400, .invalidRequest⟩)
    else pure ()
  else pure ()

def checkVersion (locked : StoredLicense) (options : LicenseUpdateOptions) : Except Failure Unit :=
  if options.expectedUpdatedAt.any fun version => locked.updatedAt ≠ version then
    .error (concurrentChange "the update")
  else .ok ()

def updateStatements (data : LicenseUpdate) (options : LicenseUpdateOptions)
    (link : Option StripeSubscriptionLink) : Except Failure (List Write) :=
  if data.type ≠ some .subscription then
    if link.isSome ∧ options.confirmStripeUnlink = false then
      .error (.domain (conflictError
        "Confirm unlinkStripe when changing a Stripe-linked subscription license"))
    else if link.isSome then .ok [.deleteLink, .updateLicense data]
    else .ok [.updateLicense data]
  else match link with
    | none => .ok [.updateLicense data]
    | some link =>
        if options.manualExpiresAtUpdate then .error (.domain (conflictError
          "Stripe-managed subscriptions cannot be renewed manually; sync or unlink Stripe first"))
        else .ok [.updateLicense { data with
          expiresAt := none
          typeDrafts := data.typeDrafts.map fun drafts => match link.paidThrough with
            | some paidThrough => { drafts with subscription := some (some paidThrough) }
            | none => drafts }]

def lockMeters (id : LicenseId) (data : LicenseUpdate) (options : LicenseUpdateOptions) :
    Server Unit :=
  if data.type = some .metered ∨ options.newMeters ≠ [] then lock (.meter id) else pure ()

def updateTransaction (id : LicenseId) (data : LicenseUpdate) (options : LicenseUpdateOptions) :
    Server Unit := do
  let writes ← orRollback do
    lockMeters id data options
    let locked ← firstOrThrow (← lockRow id) "locking a license for update"
    ofExcept (checkVersion locked options)
    let inserted ← insertNewMeters id options.newMeters
    requireActiveMeter id data inserted
    let link ← query (fun tables => tables.link id)
    let statements ← ofExcept (updateStatements data options link)
    execute (inserted ++ statements)
  let _ ← commit id none writes
  return ()

def updateStatement (id : LicenseId) (data : LicenseUpdate) (options : LicenseUpdateOptions) :
    Server Unit := do
  match ← commit id options.expectedUpdatedAt [.updateLicense data],
      options.expectedUpdatedAt with
  | some _, _ => return ()
  | none, some _ => throw (concurrentChange "the update")
  | none, none => throw (.internal "Database returned no row after updating a license.")

def update (id : LicenseId) (data : LicenseUpdate) (options : LicenseUpdateOptions) :
    Server License := do
  (if data.type.isSome ∨ options.newMeters ≠ [] then updateTransaction id data options
   else updateStatement id data options)
  reload id "Updated license could not be reloaded."

def delete (id : LicenseId) : Server Unit := perform (.deleteLicense id)

def rotateKey (host : Host) (id : LicenseId) (licenseKey : String) (expectedUpdatedAt : Instant) :
    Server RevealedLicense := do
  let billingRevokedAt ← orRollback do
    match ← lockRow id with
    | none => throw (concurrentChange "key rotation")
    | some row =>
        if row.updatedAt ≠ expectedUpdatedAt then throw (concurrentChange "key rotation")
        else query (fun tables =>
          (tables.link id).bind StripeSubscriptionLink.billingRevokedAt)
  let rows ← commit id none
    [.rotateKey (host.hashLicenseKey licenseKey) (licenseKeyPrefix licenseKey)]
  let stored ← firstOrThrow rows "rotating a license key"
  return ⟨toDomainLicense stored.after.row billingRevokedAt, licenseKey⟩

def incrementSessionRevision (id : LicenseId) : Server License := do
  let _ ← firstOrThrow (← commit id none [.incrementSessionRevision])
    "invalidating license sessions"
  reload id "Invalidated license could not be reloaded."

def updateWithSessionInvalidation (id : LicenseId) (data : LicenseUpdate) : Server License := do
  let _ ← firstOrThrow (← commit id none [.updateWithSessionInvalidation data])
    "updating a license and invalidating sessions"
  reload id "Invalidated license could not be reloaded."

def updateMeterDraft (id : LicenseId) (meterNames : List String) : Server License := do
  let _ ← orRollback do
    firstOrThrow (← lockRow id) "locking meter draft"
  let _ ← commit id none [.meterDraft (sortNames meterNames)]
  reload id "Updated license could not be reloaded."

end LicenseRepository

structure LicenseDeviceUsage where
  uniqueIps : Nat
  uniqueDevices : Nat
  ipRegistered : Bool
  deviceRegistered : Bool
  deriving DecidableEq, Repr

namespace DeviceRepository

def findLicenseAdmissionPolicy (id : LicenseId) : Server (Option LicenseWithAllowlists) := do
  match ← lockRow id with
  | none => return none
  | some stored =>
      let billingRevokedAt ← query (fun tables =>
        (tables.link id).bind StripeSubscriptionLink.billingRevokedAt)
      return some (← LicenseRepository.withAllowlists (toDomainLicense stored billingRevokedAt))

def incrementLicenseSessionRevision (id : LicenseId) : Server (Option Nat × List Write) := do
  match ← lockRow id with
  | none => return (none, [])
  | some row => return (some (row.sessionRevision + 1), [.incrementSessionRevision])

def startTrialIfUnset (id : LicenseId) (startedAt : Instant) :
    Server (Option Instant × List Write) := do
  match ← lockRow id with
  | none => return (none, [])
  | some row =>
      if row.type = .trial ∧ row.trialStartedAt = none then
        return (some startedAt, [.startTrial startedAt])
      else return (none, [])

def findRegisteredDevice (id : LicenseId) (binding : SessionBinding) :
    Server (Option RegisteredDevice) :=
  query (fun tables => (tables.devices id).find? fun device =>
    device.ip = binding.ip && device.deviceId = binding.deviceId)

def registerDevice (id : LicenseId) (binding : SessionBinding) : Server (List Write) := do
  let draw ← draw
  execute [.insertDevice ⟨draw.uuid 0, id, binding.ip, binding.deviceId, draw.now, draw.now⟩]

def touchDevice (licenseId : LicenseId) (id : String) (seenAt : Instant) : Server Unit := do
  let _ ← commit licenseId none [.touchDevice id seenAt]
  return ()

def getLicenseDeviceUsage (id : LicenseId) (binding : SessionBinding) :
    Server LicenseDeviceUsage := do
  let counts ← query (fun tables =>
    (countDistinct ((tables.devices id).map RegisteredDevice.ip),
      countDistinct ((tables.devices id).map RegisteredDevice.deviceId)))
  let ipRegistered ← query (fun tables =>
    (tables.devices id).any fun device => device.ip = binding.ip)
  let deviceRegistered ← query (fun tables =>
    (tables.devices id).any fun device => device.deviceId = binding.deviceId)
  return ⟨counts.1, counts.2, ipRegistered, deviceRegistered⟩

/-- `removeRegistrationsByIp`, `removeRegistrationsByDevice` and `resetRegisteredDevices`. -/
def removeRegistrations (id : LicenseId) (filter : DeviceFilter) : Server (Nat × List Write) := do
  let count ← query (fun tables => ((tables.devices id).filter filter.selects).length)
  return (count, [.deleteDevices filter])

end DeviceRepository

namespace SessionRepository

variable (host : Host)

def registerSession (licenseId : LicenseId) (sessionRevision : Nat) (binding : SessionBinding)
    (maxSessions : Int) : Server SessionRegistrationResult :=
  perform (.registerSession licenseId sessionRevision (host.hashBinding binding) maxSessions)

def refreshSession (sessionToken : String) (binding : SessionBinding) :
    Server (Option ResolvedSession) :=
  perform (.refreshSession sessionToken (host.hashBinding binding))

def removeSession (sessionToken : String) (binding : SessionBinding) :
    Server (Option ResolvedSession) :=
  perform (.removeSession sessionToken (host.hashBinding binding))

def removeAllSessions (licenseId : LicenseId) (preserveFromRevision : Option Nat) : Server Nat :=
  perform (.removeAllSessions licenseId preserveFromRevision)

end SessionRepository

namespace MeterRepository

def listMeters (id : LicenseId) (includeArchived : Bool) : Server (List LicenseMeter) :=
  query (fun tables =>
    (MeterRegion.meters (tables.meters id)).filter (fun meter =>
      includeArchived || meter.archivedAt.isNone) |>.insertionSort fun first second =>
        codeUnits first.name ≤ codeUnits second.name)

def statements {α : Type} (id : LicenseId) (script : Draw → MeterScript α) :
    Server (α × List Write) := do
  let draw ← draw
  let region ← query (fun tables => tables.meters id)
  let written ← ofExcept ((script draw).run region)
  return (written.2, (written.1.map Write.meters).toList)

def transaction {α : Type} (id : LicenseId) (body : Server (α × List Write)) : Server α := do
  let (result, writes) ← orRollback do
    lock (.meter id)
    body
  let _ ← commit id none writes
  return result

def createMeter (id : LicenseId) (name : String) (balance : Int) (reason : String) :
    Server LicenseMeter :=
  transaction id (statements id (Keyzori.createMeter id name balance reason))

def archiveMeter (id : LicenseId) (name reason : String) : Server (Option LicenseMeter) :=
  transaction id do
    let license ← lockRow id
    statements id (Keyzori.archiveMeter id name reason (license.map fun row => row.type))

def consume (host : Host) (id : LicenseId) (input : UsageRequest) : Server UsageConsumptionResult :=
  transaction id
    (statements id (consumeMeter id input.meter input.units (host.hashUsageEventId input.eventId)))

def adjust (id : LicenseId) (name : String) (delta : Int) (reason : String)
    (kind : MeterLedgerKind) : Server MeterAdjustmentResult :=
  transaction id (statements id (adjustMeter id name delta reason kind))

end MeterRepository

structure AccessRecords where
  allowedIps : List String
  allowedDevices : List String

namespace AccessRepository

def getAccessRecords (id : LicenseId) : Server AccessRecords := do
  let allowedIps ← query (fun tables => tables.allowedIps id)
  let allowedDevices ← query (fun tables => tables.allowedDevices id)
  return ⟨allowedIps, allowedDevices⟩

def addAllowed (id : LicenseId) (write : Write) (constraint : String) : Server Unit := do
  match ← commit id none [write] with
  | some _ => return ()
  | none => throw (.internal constraint)

def addAllowedIp (id : LicenseId) (ip : String) : Server Unit :=
  addAllowed id (.allowIp ip) "license_ip_allowlist_license_id_fkey"

def addAllowedDevice (id : LicenseId) (deviceId : String) : Server Unit :=
  addAllowed id (.allowDevice deviceId) "license_device_allowlist_license_id_fkey"

def removeAllowed (id : LicenseId) (write : Write) (listed : LicenseData → Bool) :
    Server Bool := do
  let rows ← commit id none [write]
  return rows.any fun written => listed written.before

def removeAllowedIp (id : LicenseId) (ip : String) : Server Bool :=
  removeAllowed id (.removeAllowedIp ip) fun data => ip ∈ data.allowedIps

def removeAllowedDevice (id : LicenseId) (deviceId : String) : Server Bool :=
  removeAllowed id (.removeAllowedDevice deviceId) fun data => deviceId ∈ data.allowedDevices

end AccessRepository

namespace CustomerRepository

def findById (id : String) : Server Bool := query (fun tables => decide (id ∈ tables.customers))

def delete (id : String) : Server Unit := perform (.deleteCustomer id)

end CustomerRepository

structure NewStripeSubscriptionLink where
  licenseId : LicenseId
  subscriptionId : String
  stripeCustomerId : String
  status : String
  paidThrough : Option Instant
  cancelAtPeriodEnd : Bool
  priceId : Option String
  billingRevokedAt : Option Instant
  lastSyncedAt : Instant
  lastError : Option String

def NewStripeSubscriptionLink.row (data : NewStripeSubscriptionLink) (draw : Draw) :
    StripeSubscriptionLink :=
  { id := draw.uuid 0
    licenseId := data.licenseId
    subscriptionId := data.subscriptionId
    stripeCustomerId := data.stripeCustomerId
    status := data.status
    paidThrough := data.paidThrough
    cancelAtPeriodEnd := data.cancelAtPeriodEnd
    priceId := data.priceId
    billingRevokedAt := data.billingRevokedAt
    lastSyncedAt := some data.lastSyncedAt
    lastError := data.lastError
    createdAt := draw.now
    updatedAt := draw.now }

namespace StripeRepository

def findByLicenseId (id : LicenseId) : Server (Option StripeSubscriptionLink) :=
  query (fun tables => tables.link id)

def findBySubscriptionId (subscriptionId : String) : Server (Option StripeSubscriptionLink) :=
  query (fun tables => tables.findBySubscriptionId subscriptionId)

/-- The writes of a body belong to one license; without a license it wrote nothing. -/
def withSubscriptionReconciliationLock {α : Type} (subscriptionId : String)
    (operation : Server (α × Option (LicenseId × List Write))) : Server α := do
  let (result, written) ← orRollback do
    lock (.stripe subscriptionId)
    operation
  match written with
  | none => do
      perform .finish
      return result
  | some (id, writes) => do
      let _ ← commit id none writes
      return result

/-- Inside the reconciliation transaction; `fetched` is where the data come from. -/
def createForSubscriptionLicense (data : NewStripeSubscriptionLink) (fetched : FetchedSnapshot) :
    Server (Option (StripeSubscriptionLink × List Write)) := do
  let license ← lockRow data.licenseId
  if license.map (fun row => row.type) ≠ some .subscription then return none
  else match data.paidThrough with
    | none => throw (.internal "A Stripe-linked subscription requires paid-through access.")
    | some paidThrough => do
        let draw ← draw
        let link := data.row draw
        let violated ← query (fun tables =>
          tables.violation data.licenseId (.insertLink link fetched))
        let writes ← match violated with
          | some constraint => throw (.internal constraint)
          | none => execute [.insertLink link fetched, .setExpiresAt paidThrough]
        return some (link, writes)

def reconcileForSubscriptionLicense (subscriptionId : String) (data : StripeSubscriptionLinkUpdate)
    (fetched : FetchedSnapshot) :
    Server (Option StripeSubscriptionLink × Option (LicenseId × List Write)) := do
  match ← findBySubscriptionId subscriptionId with
  | none => return (none, none)
  | some candidate =>
      let license ← lockRow candidate.licenseId
      match ← perform (.lockLink candidate.licenseId subscriptionId) with
      | none => return (none, none)
      | some existing =>
          if license.map (fun row => row.type) ≠ some .subscription then
            let writes ← execute [.deleteLink]
            return (none, some (candidate.licenseId, writes))
          else do
            let draw ← draw
            let writes ← execute
              (.updateLink data fetched :: (data.paidThrough.map Write.setExpiresAt).toList)
            return (some (data.apply draw.now existing), some (candidate.licenseId, writes))

def deleteByLicenseId (id : LicenseId) : Server Bool := do
  let rows ← commit id none [.deleteLink]
  return rows.any fun written => written.before.link.isSome

def updateLastError (subscriptionId error : String) : Server Unit := do
  match ← perform (.updateLinkError subscriptionId error) with
  | true => return ()
  | false => throw (.internal "Database returned no row after updating a Stripe subscription link.")

end StripeRepository

namespace WebhookRepository

def enqueue (data : NewStripeWebhookEvent) : Server (StripeWebhookEvent × Bool) :=
  perform (.enqueue data)

def claimDue (limit : Number) (now : Instant) : Server (List StripeWebhookEvent) :=
  match limit with
  | .integer limit => if limit < 1 then pure [] else perform (.claimDue limit.toNat now)
  | .other => pure []

def markProcessed (eventId : String) (processedAt : Instant) : Server Unit :=
  perform (.markProcessed eventId processedAt)

def markFailed (eventId error : String) (nextAttemptAt : Instant) : Server Unit :=
  perform (.markFailed eventId error nextAttemptAt)

end WebhookRepository

end Keyzori
