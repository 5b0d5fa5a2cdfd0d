import Keyzori.Meters.Balances
import Keyzori.Server.Traces

namespace Keyzori

open Interleaving

def Request.edits : Request → Option (LicenseId × UpdateLicenseInput)
  | .updateLicense id data => some (id, data)
  | .renewSubscription id expiresAt => some (id, { expiresAt := some (some expiresAt) })
  | _ => none

/-- The license of a removal, and whether it invalidates sessions in any case. -/
def Request.removes : Request → Option (LicenseId × Bool)
  | .removeRegisteredIp id _ | .removeRegisteredDevice id _ => some (id, false)
  | .resetRegisteredDevices id => some (id, true)
  | _ => none

def Request.allows : Request → Option LicenseId
  | .allowLicenseIp id _ | .removeLicenseAllowedIp id _ | .allowLicenseDevice id _
  | .removeLicenseAllowedDevice id _ => some id
  | _ => none

/-- The license whose meters a call creates or archives. -/
def Request.meters : Request → Option LicenseId
  | .createLicenseMeter id _ | .archiveLicenseMeter id _ _ => some id
  | _ => none

def Request.adjusts : Request → Option LicenseId
  | .topUpLicenseMeter id _ _ _ | .adjustLicenseMeter id _ _ _ => some id
  | _ => none

def Request.invalidates : Request → Option LicenseId
  | .revokeLicense id _ | .terminateLicenseSessions id => some id
  | _ => none

def Request.synchronizes : Request → Bool
  | .linkLicense _ _ | .syncLicense _ | .processDue _ => true
  | _ => false

def Request.processes : Request → Bool
  | .processDue _ => true
  | _ => false

def Request.receives : Request → Bool
  | .receive _ => true
  | _ => false

def Request.activates : Request → Bool
  | .activate _ _ _ => true
  | _ => false

def Request.usesSession : Request → Bool
  | .activate _ _ _ | .heartbeat _ _ _ => true
  | _ => false

def Request.presents : Request → Bool
  | .heartbeat _ _ _ | .consume _ _ _ _ => true
  | _ => false

def Write.allowlist : Write → Bool
  | allowIp _ | removeAllowedIp _ | allowDevice _ | removeAllowedDevice _ => true
  | _ => false

variable (host : Host) (request : Request) (trace : ServerTrace)

section Activation

structure LookedUp (binding : SessionBinding) (license : License) : Prop where
  asked : ∃ licenseKey deviceId ip, request = .activate licenseKey deviceId ip ∧
    sessionBinding ip deviceId = .ok binding ∧
    Took trace (.findByKeyHash (host.hashLicenseKey licenseKey)) (some license)
  once : ∀ keyHash found, Took trace (.findByKeyHash keyHash) found → found = some license
  first : ∃ keyHash after, trace = ⟨.findByKeyHash keyHash, .ok (some license)⟩ :: after

/-- An activation in its registration transaction, after it compared the revisions. -/
structure Admitting (binding : SessionBinding) (license : License) (row : StoredLicense) : Prop where
  lookup : LookedUp host request trace binding license
  policy : Under trace (.registration license.id) (.lockRow license.id) (some row)
  revision : row.sessionRevision = license.sessionRevision

inductive StartsTrial (row : StoredLicense) : List Write → Prop
  | running (started : ¬(row.type = .trial ∧ row.trialStartedAt = none)) : StartsTrial row []
  | first (now : Draw) (type : row.type = .trial) (unset : row.trialStartedAt = none)
      (drawn : Took trace .draw now) : StartsTrial row [.startTrial now.now]

def Registered {α : Type} (license : License) (row : StoredLicense)
    (read : List RegisteredDevice → α) (value : α) : Prop :=
  Under trace (.registration license.id) (.query fun tables => read (tables.devices row.id)) value

inductive Surveyed (binding : SessionBinding) (license : License) (row : StoredLicense) :
    Option RegisteredDevice → Prop
  | known (device : RegisteredDevice)
      (found : Registered trace license row
        (fun devices => devices.find? fun device =>
          device.ip = binding.ip && device.deviceId = binding.deviceId) (some device)) :
      Surveyed binding license row (some device)
  | new (usage : LicenseDeviceUsage) (current : License)
      (absent : Registered trace license row
        (fun devices => devices.find? fun device =>
          device.ip = binding.ip && device.deviceId = binding.deviceId) none)
      (counts : Registered trace license row
        (fun devices => (countDistinct (devices.map RegisteredDevice.ip),
          countDistinct (devices.map RegisteredDevice.deviceId)))
        (usage.uniqueIps, usage.uniqueDevices))
      (ip : Registered trace license row
        (fun devices => devices.any fun device => device.ip = binding.ip) usage.ipRegistered)
      (deviceId : Registered trace license row
        (fun devices => devices.any fun device => device.deviceId = binding.deviceId)
        usage.deviceRegistered)
      (columns : current.toLicenseColumns = row.toLicenseColumns)
      (limits : LicenseService.checkLimits current usage = .ok ()) :
      Surveyed binding license row none

inductive Registers (binding : SessionBinding) (license : License) (row : StoredLicense) :
    List Write → Prop
  | known (device : RegisteredDevice)
      (surveyed : Surveyed trace binding license row (some device)) : Registers binding license row []
  | new (now : Draw) (surveyed : Surveyed trace binding license row none) :
      Registers binding license row
        [.insertDevice ⟨now.uuid 0, row.id, binding.ip, binding.deviceId, now.now, now.now⟩]

end Activation

section Operator

/-- The read that an operator's update is computed from: its first act, or in a
renewal the one after the type check. -/
def Initial (id : LicenseId) (current : License) : Prop :=
  ∃ before after, trace = before ++ ⟨.findLicense id, .ok (some current)⟩ :: after ∧
    ((∃ expiresAt, request = .renewSubscription id expiresAt) ∨ before = [])

/-- The version check of an operator's update, under the row lock. -/
structure Unchanged (id : LicenseId) (current : License) (row : StoredLicense) : Prop where
  read : Initial request trace id current
  locked : Within trace (.lockRow id) (some row)
  version : row.updatedAt = current.updatedAt

inductive Inserts (id : LicenseId) : List NewLicenseMeter → List Write → Prop
  | nothing (newMeters : List NewLicenseMeter) (empty : newMeters = []) : Inserts id newMeters []
  | missing (newMeters : List NewLicenseMeter) (region : MeterRegion) (now : Draw)
      (read : Under trace (.row id) (.query fun tables => tables.meters id) region)
      (ran : (insertNewMeters id newMeters now).run region = .ok (none, ())) : Inserts id newMeters []
  | inserted (newMeters : List NewLicenseMeter) (region : MeterRegion) (table : MeterTable)
      (now : Draw) (read : Under trace (.meter id) (.query fun tables => tables.meters id) region)
      (ran : (insertNewMeters id newMeters now).run region = .ok (some table, ())) :
      Inserts id newMeters [.meters table]

def activeListed (id : LicenseId) (tables : Tables) : List LicenseMeter :=
  (MeterRegion.meters (tables.meters id)).filter (fun meter => false || meter.archivedAt.isNone)
    |>.insertionSort fun first second => codeUnits first.name ≤ codeUnits second.name

def editedConfig (targetType : LicenseType) (currentMeters : List LicenseMeter)
    (newMeters : List NewLicenseMeter) (config : TypeConfig) : TypeConfig :=
  if targetType = .metered then { config with
    typeDrafts := { config.typeDrafts with
      metered := some (sortNames (currentMeters.map LicenseMeter.name ++
        newMeters.map NewLicenseMeter.name).dedup) } }
  else config

structure Computed (id : LicenseId) (current : License) (data : UpdateLicenseInput)
    (update : LicenseUpdate) (options : LicenseUpdateOptions) (currentMeters : List LicenseMeter) :
    Prop where
  config : ∃ limits config newMeters now, Took trace .draw now ∧
    AdminService.checkTypeFields (data.type.getD current.type) data = .ok () ∧
    AdminService.checkNewMeters (data.type.getD current.type) newMeters = .ok () ∧
    AdminService.updateTypeConfig current data (data.type.getD current.type)
      (data.type.getD current.type ≠ current.type)
      (AdminService.withCurrentDraft current (currentMeters.map LicenseMeter.name)) now.now =
        .ok config ∧
    update = AdminService.licenseUpdate current data limits
      (editedConfig (data.type.getD current.type) currentMeters newMeters config) ∧
    options = AdminService.updateOptions current data newMeters currentMeters
  listed : InOrder trace ⟨.findLicense id, .ok (some current)⟩
    ⟨.query (activeListed id), .ok currentMeters⟩
  limited : ∃ limits config,
    AdminService.validateLimits data.maxIps data.maxDevices data.maxSessions = .ok limits ∧
      update = AdminService.licenseUpdate current data limits config
  bounded : ∀ meter ∈ options.newMeters, MeterRegion.Bounded meter.balance

structure Edits (id : LicenseId) (data : UpdateLicenseInput) (current : License)
    (row : StoredLicense) (update : LicenseUpdate) (link : Option StripeSubscriptionLink)
    (inserted statements : List Write) : Prop where
  asked : request.edits = some (id, data)
  unchanged : Unchanged request trace id current row
  linked : Under trace (.row id) (.query fun tables => tables.link id) link
  computed : ∃ options currentMeters, Computed trace id current data update options currentMeters ∧
    LicenseRepository.updateStatements update options link = .ok statements ∧
    Inserts trace id options.newMeters inserted
  active : update.type = some .metered → ∃ region,
    Under trace (.meter id) (.query fun tables => tables.meters id) region ∧
      MeterRegion.activeMeters (region.map fun table => inserted.foldl Write.applyMeters table) ≠ []

inductive MeterScripts (id : LicenseId) (region : MeterRegion) (table : MeterTable) : Prop
  | create (data : CreateMeterInput) (name : String) (balance : Int) (reason : String) (now : Draw)
      (meter : LicenseMeter) (asked : request = .createLicenseMeter id data)
      (first : ∀ deed ∈ trace, deed.act.ends = false)
      (ran : (createMeter id name balance reason now).run region = .ok (some table, meter))
      (bounded : MeterRegion.Bounded balance)
  | archive (text reasonText name reason : String) (row : Option StoredLicense) (now : Draw)
      (meter : Option LicenseMeter) (asked : request = .archiveLicenseMeter id text reasonText)
      (first : ∀ deed ∈ trace, deed.act.ends = false)
      (locked : Within trace (.lockRow id) row)
      (ran : (archiveMeter id name reason (row.map fun row => row.type) now).run region =
        .ok (some table, meter))
  | adjust (name : String) (delta : Int) (reason : String) (kind : MeterLedgerKind) (now : Draw)
      (result : MeterAdjustmentResult) (asked : request.adjusts = some id)
      (ran : (adjustMeter id name delta reason kind now).run region = .ok (some table, result))
      (posted : kind ≠ .create ∧ kind ≠ .consume)
      (bounded : -maxLicenseLimit ≤ delta ∧ delta ≤ maxLicenseLimit)
  | consume (name : String) (units : Int) (eventIdHash : String) (now : Draw)
      (result : UsageConsumptionResult) (asked : request.presents = true)
      (ran : (consumeMeter id name units eventIdHash now).run region = .ok (some table, result))
      (bounded : 1 ≤ units ∧ units ≤ maxLicenseLimit)

inductive Increments (id : LicenseId) (always : Bool) (count : Nat) : List Write → Prop
  | kept (unasked : (always || decide (count > 0)) = false) : Increments id always count []
  | missing (license : License) (locked : Within trace (.lockRow id) none)
      (found : InOrder trace ⟨.findLicense id, .ok (some license)⟩ ⟨.lockRow id, .ok none⟩) :
      Increments id always count []
  | incremented (row : StoredLicense) (locked : Within trace (.lockRow id) (some row)) :
      Increments id always count [.incrementSessionRevision]

end Operator

section Stripe

/-- A snapshot that the call fetched under the reconciliation lock. -/
def Fetched (subscriptionId : String) (fetched : FetchedSnapshot) : Prop :=
  Under trace (.stripe subscriptionId) (.getSubscription subscriptionId) fetched

structure Reconciling (subscriptionId : String) (existing locked : StripeSubscriptionLink)
    (id : LicenseId) (row : Option StoredLicense) (fetched : FetchedSnapshot) : Prop where
  asked : request.synchronizes = true
  existing : Under trace (.stripe subscriptionId)
    (.query fun tables => tables.findBySubscriptionId subscriptionId) (some existing)
  candidate : ∃ candidate, candidate.licenseId = id ∧ Under trace (.stripe subscriptionId)
    (.query fun tables => tables.findBySubscriptionId subscriptionId) (some candidate)
  fetched : Fetched trace subscriptionId fetched
  row : Within trace (.lockRow id) row
  locked : Within trace (.lockLink id subscriptionId) (some locked)

end Stripe

/-- What a commit writes, and why. -/
inductive Commits : LicenseId → List Write → Prop
  | nothing (id : LicenseId) (other : request.activates = false) : Commits id []
  | touched (id : LicenseId) (deviceRow : String) (seenAt : Instant)
      (asked : request.usesSession = true) (admitted : request.activates = true → ¬Uncommitted trace) :
      Commits id [.touchDevice deviceRow seenAt]
  | admitted (binding : SessionBinding) (license : License) (row : StoredLicense)
      (started registered : List Write) (admitting : Admitting host request trace binding license row)
      (starts : StartsTrial trace row started)
      (registers : Registers trace binding license row registered) :
      Commits row.id (started ++ registered)
  | revoked (id : LicenseId) (stamp : Instant) (reason text : String)
      (asked : request = .revokeLicense id text) :
      Commits id [.updateWithSessionInvalidation
        { manualRevokedAt := some (some stamp), manualRevocationReason := some (some reason) }]
  | restored (id : LicenseId) (asked : request = .restoreLicense id) :
      Commits id [.updateLicense { manualRevokedAt := some none, manualRevocationReason := some none }]
  | rotated (id : LicenseId) (current : License) (row : StoredLicense) (keyHash keyPrefix : String)
      (asked : request = .rotateLicenseKey id) (unchanged : Unchanged request trace id current row) :
      Commits id [.rotateKey keyHash keyPrefix]
  | terminated (id : LicenseId) (asked : request = .terminateLicenseSessions id) :
      Commits id [.incrementSessionRevision]
  | removed (id : LicenseId) (filter : DeviceFilter) (always : Bool) (count : Nat)
      (increment : List Write) (asked : request.removes = some (id, always))
      (counted : Under trace (.registration id)
        (.query fun tables => ((tables.devices id).filter filter.selects).length) count)
      (increments : Increments trace id always count increment) :
      Commits id (.deleteDevices filter :: increment)
  | allowed (id : LicenseId) (write : Write) (listed : write.allowlist = true)
      (asked : request.allows = some id) : Commits id [write]
  | drafted (id : LicenseId) (meters : List LicenseMeter) (asked : request.meters = some id)
      (listed : Took trace (.query (activeListed id)) meters) :
      Commits id [.meterDraft (sortNames (meters.map LicenseMeter.name))]
  | metered (id : LicenseId) (region : MeterRegion) (table : MeterTable)
      (read : Under trace (.meter id) (.query fun tables => tables.meters id) region)
      (scripts : MeterScripts request trace id region table) : Commits id [.meters table]
  | edited (id : LicenseId) (data : UpdateLicenseInput) (current : License) (row : StoredLicense)
      (update : LicenseUpdate) (link : Option StripeSubscriptionLink)
      (inserted statements : List Write)
      (edits : Edits request trace id data current row update link inserted statements) :
      Commits id (inserted ++ statements)
  | dropped (id : LicenseId) (data : UpdateLicenseInput) (link : StripeSubscriptionLink)
      (update : LicenseUpdate) (writes : List Write) (written : Option Written)
      (asked : request.edits = some (id, data)) (unlinked : data.unlinkStripe = some true)
      (other : update.type ≠ some .subscription)
      (observed : Took trace (.query fun tables => tables.link id) (some link))
      (committed : Took trace (.commit id none writes) written)
      (updated : .updateLicense update ∈ writes) : Commits id [.deleteLink]
  | unlinked (id : LicenseId) (link : StripeSubscriptionLink) (asked : request = .unlinkLicense id)
      (observed : Took trace (.query fun tables => tables.link id) (some link)) :
      Commits id [.deleteLink]
  | linked (id : LicenseId) (subscriptionId : String) (row : StoredLicense)
      (fetched : FetchedSnapshot) (paidThrough now : Instant) (draw : Draw)
      (asked : request = .linkLicense id subscriptionId)
      (fetch : Fetched trace subscriptionId fetched)
      (locked : Within trace (.lockRow id) (some row)) (type : row.type = .subscription)
      (paid : fetched.snapshot.paidThrough = some paidThrough) :
      Commits id [.insertLink ((newLink id fetched.snapshot now).row draw) fetched,
        .setExpiresAt paidThrough]
  | reconciled (subscriptionId : String) (existing locked : StripeSubscriptionLink)
      (id : LicenseId) (row : StoredLicense) (fetched : FetchedSnapshot) (now : Instant)
      (reconciling : Reconciling request trace subscriptionId existing locked id (some row) fetched)
      (type : row.type = .subscription) :
      Commits id (.updateLink (linkUpdate existing fetched.snapshot now) fetched ::
        (fetched.snapshot.paidThrough.map Write.setExpiresAt).toList)
  | disconnected (subscriptionId : String) (existing locked : StripeSubscriptionLink)
      (id : LicenseId) (row : Option StoredLicense) (fetched : FetchedSnapshot)
      (reconciling : Reconciling request trace subscriptionId existing locked id row fetched)
      (type : row.map (fun row => row.type) ≠ some .subscription) : Commits id [.deleteLink]

/-- The revision a cleanup passes comes from the call's own increment. -/
inductive Cleans (id : LicenseId) (revision : Nat) : Prop
  | rotated (keyHash keyPrefix : String) (written : Written)
      (asked : request = .rotateLicenseKey id)
      (committed : Took trace (.commit id none [.rotateKey keyHash keyPrefix]) (some written))
      (own : revision = written.after.row.sessionRevision)
  | reloaded (writes : List Write) (written : Written) (license : License)
      (asked : request.invalidates = some id)
      (committed : InOrder trace ⟨.commit id none writes, .ok (some written)⟩
        ⟨.findLicense id, .ok (some license)⟩)
      (own : revision = license.sessionRevision)
  | removed (before after : ServerTrace) (row : StoredLicense) (writes : List Write)
      (result : Option Written) (always : Bool)
      (asked : request.removes = some (id, always))
      (shape : trace = before ++ ⟨.commit id none writes, .ok result⟩ :: after)
      (incremented : .incrementSessionRevision ∈ writes)
      (locked : Within before (.lockRow id) (some row))
      (own : revision = row.sessionRevision + 1)

/-- A cleanup that spares no session follows a deletion, of this call or before. -/
inductive Deletes (id : LicenseId) : Prop
  | license (deleted : Took trace (.deleteLicense id) ()) (asked : request = .deleteLicense id)
  | customer (customerId : String) (ids : List LicenseId)
      (asked : request = .deleteCustomer customerId)
      (listed : Took trace (.query fun tables => tables.ids.filter (tables.ownedBy customerId)) ids)
      (member : id ∈ ids) (deleted : Took trace (.deleteCustomer customerId) ())
  | missing (license : License) (always : Bool) (asked : request.removes = some (id, always))
      (found : InOrder trace ⟨.findLicense id, .ok (some license)⟩ ⟨.lockRow id, .ok none⟩)

/-- The end of a reconciliation: no license is linked to the subscription, or a
snapshot fetched under the lock is stored. -/
inductive Settles (subscriptionId : String) : ServerDeed → Prop
  | unlinked (held : Holding trace (.stripe subscriptionId)) :
      Settles subscriptionId
        ⟨.query fun tables => tables.findBySubscriptionId subscriptionId, .ok none⟩
  | vanished (id : LicenseId) (existing : StripeSubscriptionLink)
      (candidate : Under trace (.stripe subscriptionId)
        (.query fun tables => tables.findBySubscriptionId subscriptionId) (some existing))
      (owner : existing.licenseId = id) :
      Settles subscriptionId ⟨.lockLink id subscriptionId, .ok none⟩
  | committed (id : LicenseId) (existing locked : StripeSubscriptionLink)
      (row : Option StoredLicense) (fetched : FetchedSnapshot) (writes : List Write)
      (result : Option Written)
      (reconciling : Reconciling request trace subscriptionId existing locked id row fetched)
      (writing : writes = [.deleteLink] ∨ ∃ update, .updateLink update fetched ∈ writes) :
      Settles subscriptionId ⟨.commit id none writes, .ok result⟩

/-- The call settled the subscription after the claim, under a lock it took after the claim. -/
def Settled (claim : ServerDeed) (subscriptionId : String) : Prop :=
  ∃ before deed after, trace = before ++ deed :: after ∧ Settles request before subscriptionId deed ∧
    InOrder before claim ⟨.lock (.stripe subscriptionId), .ok ()⟩

/-- An event is marked after its subscription was settled, if it has one. -/
def Processes (eventId : String) : Prop :=
  request.processes = true ∧ ∃ limit now events event, event ∈ events ∧ event.eventId = eventId ∧
    Took trace (.claimDue limit now) events ∧ ∀ subscriptionId,
      StripeWebhookService.eventSubscription event = some subscriptionId → subscriptionId ≠ "" →
        Settled request trace ⟨.claimDue limit now, .ok events⟩ subscriptionId

structure Creates (id : LicenseId) (data : NewLicense) (table : MeterTable) : Prop where
  idle : Idle trace
  computed : ∃ input limits config meters now, request = .createLicense input ∧
    validateMeters (input.meters.getD []) = .ok meters ∧
    AdminService.createTypeConfig input meters now = .ok config ∧
    data = AdminService.newLicense input limits config meters
  meters : ∃ now written, (createLicenseMeters id data.meters now).run none = .ok written ∧
    table = written.1.getD ⟨[], []⟩
  limited : ∃ input limits config meters,
    AdminService.validateLimits input.maxIps input.maxDevices input.maxSessions = .ok limits ∧
      data = AdminService.newLicense input limits config meters

/-- The session that a call ends is its own. -/
inductive Ends : String → String → Prop
  | reserved (id : LicenseId) (sessionRevision : Nat) (bindingHash : String) (maxSessions : Int)
      (sessionToken : String) (asked : request.activates = true)
      (registered : Took trace (.registerSession id sessionRevision bindingHash maxSessions)
        (.registered sessionToken)) : Ends sessionToken bindingHash
  | refused (sessionToken bindingHash : String) (resolved : ResolvedSession)
      (asked : request.presents = true)
      (refreshed : Took trace (.refreshSession sessionToken bindingHash) (some resolved)) :
      Ends resolved.token bindingHash
  | deactivated (sessionToken deviceId ip : String) (binding : SessionBinding)
      (asked : request = .deactivate sessionToken deviceId ip)
      (bound : sessionBinding ip deviceId = .ok binding) :
      Ends sessionToken (host.hashBinding binding)

def warrant : Act → Prop
  | .commit id _ writes => Commits host request trace id writes
  | .insertCustomer id => request = .createCustomer id
  | .insertLicense id _ _ data meters => Creates request trace id data meters
  | .deleteLicense id => Idle trace ∧ request = .deleteLicense id
  | .deleteCustomer id => Idle trace ∧ request = .deleteCustomer id
  | .updateLinkError _ _ => Idle trace ∧ request.synchronizes = true
  | .registerSession id sessionRevision bindingHash maxSessions => ∃ binding license row,
      Admitting host request trace binding license row ∧ id = row.id ∧
        sessionRevision = row.sessionRevision ∧ bindingHash = host.hashBinding binding ∧
        maxSessions = row.maxSessions
  | .refreshSession _ _ => request.presents = true
  | .removeSession sessionToken bindingHash => Ends host request trace sessionToken bindingHash
  | .removeAllSessions id (some revision) => Cleans request trace id revision
  | .removeAllSessions id none => Deletes request trace id
  | .getSubscription _ => request.synchronizes = true
  | .enqueue _ => request.receives = true
  | .claimDue _ _ => Idle trace ∧ request.processes = true
  | .markFailed _ _ _ => request.processes = true
  | .markProcessed eventId _ => Processes request trace eventId
  | _ => True

end Keyzori
