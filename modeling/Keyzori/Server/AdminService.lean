import Keyzori.Server.LicenseService

namespace Keyzori

open Interleaving

/-- What `new Date` makes of a text. -/
inductive DateText
  | empty
  | invalid
  | date (instant : Instant)
  deriving DecidableEq, Repr

/-- A field that is `undefined` is `none`. -/
structure CreateLicenseInput where
  customerId : String
  type : LicenseType
  maxIps : Option Number := none
  maxDevices : Option Number := none
  maxSessions : Option Number := none
  trialDurationMinutes : Option Number := none
  metadata : Option String := none
  expiresAt : Option DateText := none
  meters : Option (List CreateMeterInput) := none

/-- As above; `expiresAt` can be `null` too. -/
structure UpdateLicenseInput where
  customerId : Option String := none
  type : Option LicenseType := none
  maxIps : Option Number := none
  maxDevices : Option Number := none
  maxSessions : Option Number := none
  trialDurationMinutes : Option Number := none
  metadata : Option String := none
  expiresAt : Option (Option DateText) := none
  meters : Option (List CreateMeterInput) := none
  unlinkStripe : Option Bool := none

structure ManagedLicense where
  license : License
  effective : EffectiveLicenseStatus
  deriving DecidableEq

structure TypeConfig where
  expiresAt : Option Instant
  trialDurationMinutes : Int
  trialStartedAt : Option Instant
  typeDrafts : LicenseTypeDrafts
  deriving DecidableEq

def badRequest (message : String) : DomainError := ⟨message, 400, .invalidRequest⟩

def parseFutureDate (value : DateText) (now : Instant) (label : String := "expiresAt") :
    Except DomainError Instant :=
  match value with
  | .date instant =>
      if instant ≤ now then .error (badRequest s!"{label} must be a valid future date")
      else .ok instant
  | _ => .error (badRequest s!"{label} must be a valid future date")

def truthy (value : Option DateText) : Option DateText := value.filter fun text => text ≠ .empty

def managed (license : License) : Server ManagedLicense := do
  let now ← draw
  return ⟨license, deriveLicenseStatus license now.now⟩

def ofDomain {α : Type} (result : Except DomainError α) : Server α :=
  ofExcept (result.mapError Failure.domain)

namespace AdminService

variable (host : Host)

def createTypeConfig (data : CreateLicenseInput) (meters : List NewLicenseMeter) (now : Instant) :
    Except DomainError TypeConfig :=
  match data.type with
  | .subscription => match truthy data.expiresAt with
      | none => .error (badRequest "Subscription licenses require expiresAt")
      | some text =>
          if data.trialDurationMinutes.isSome then
            .error (badRequest "trialDurationMinutes is only valid for trial licenses")
          else if meters ≠ [] then
            .error (badRequest "meters are only valid for metered licenses")
          else do
            let expiresAt ← parseFutureDate text now
            return ⟨some expiresAt, 0, none, { subscription := some (some expiresAt) }⟩
  | .trial => do
      let duration ← validateInteger (data.trialDurationMinutes.getD (.integer 0))
        "trialDurationMinutes" 1
      if (truthy data.expiresAt).isSome then
        .error (badRequest "expiresAt is only valid for subscription licenses")
      else if meters ≠ [] then .error (badRequest "meters are only valid for metered licenses")
      else return ⟨none, duration, none, { trial := some duration }⟩
  | .metered =>
      if meters = [] then .error (badRequest "Metered licenses require at least one meter")
      else if (truthy data.expiresAt).isSome ∨ data.trialDurationMinutes.isSome then
        .error (badRequest "expiresAt and trialDurationMinutes are not valid for metered licenses")
      else .ok ⟨none, 0, none, { metered := some (sortNames (meters.map NewLicenseMeter.name)) }⟩
  | .lifetime =>
      if (truthy data.expiresAt).isSome ∨ data.trialDurationMinutes.isSome ∨ meters ≠ [] then
        .error (badRequest "Lifetime licenses do not accept expiry, trial, or meter settings")
      else .ok ⟨none, 0, none, { lifetime := true }⟩

theorem createTypeConfig_ok {data : CreateLicenseInput} {meters : List NewLicenseMeter} {now : Instant}
    {config : TypeConfig} (made : createTypeConfig data meters now = .ok config) :
    (data.type = .subscription ∧ ∃ expiresAt,
        config = ⟨some expiresAt, 0, none, { subscription := some (some expiresAt) }⟩) ∨
      (data.type = .trial ∧ ∃ duration, 1 ≤ duration ∧ duration ≤ maxLicenseLimit ∧
        config = ⟨none, duration, none, { trial := some duration }⟩) ∨
      (data.type = .metered ∧
        config = ⟨none, 0, none, { metered := some (sortNames (meters.map NewLicenseMeter.name)) }⟩) ∨
      data.type = .lifetime ∧ config = ⟨none, 0, none, { lifetime := true }⟩ := by
  simp only [createTypeConfig] at made
  cases type : data.type with
  | subscription =>
      simp only [type] at made
      split at made
      · cases made
      · split at made
        · cases made
        · split at made
          · cases made
          · obtain ⟨expiresAt, -, made⟩ := bind_ok.mp made
            cases made
            exact .inl ⟨rfl, expiresAt, rfl⟩
  | trial =>
      simp only [type] at made
      obtain ⟨duration, valid, made⟩ := bind_ok.mp made
      obtain ⟨-, positive, bounded⟩ := validateInteger_bounds valid
      split at made
      · cases made
      · split at made <;> cases made
        exact .inr (.inl ⟨rfl, duration, positive, bounded, rfl⟩)
  | metered =>
      simp only [type] at made
      split at made
      · cases made
      · split at made <;> cases made
        exact .inr (.inr (.inl ⟨rfl, rfl⟩))
  | lifetime =>
      simp only [type] at made
      split at made <;> cases made
      exact .inr (.inr (.inr ⟨rfl, rfl⟩))

def withCurrentDraft (license : License) (meterNames : List String) : LicenseTypeDrafts :=
  match license.type with
  | .subscription => { license.typeDrafts with subscription := some license.expiresAt }
  | .trial => { license.typeDrafts with trial := some license.trialDurationMinutes }
  | .metered => { license.typeDrafts with metered := some (sortNames meterNames) }
  | .lifetime => { license.typeDrafts with lifetime := true }

/-- The three sources of the expiry of a subscription in `updateTypeConfig`. -/
def updatedExpiry (current : License) (expiresAt : Option (Option DateText)) (typeChanged : Bool)
    (drafts : LicenseTypeDrafts) (now : Instant) : Except DomainError (Option Instant) :=
  match truthy expiresAt.join with
  | some text => (parseFutureDate text now).map some
  | none =>
      if !typeChanged then .ok current.expiresAt
      else match drafts.subscription.join with
        | some draft => (parseFutureDate (.date draft) now).map some
        | none => .ok none

def updateTypeConfig (current : License) (data : UpdateLicenseInput) (targetType : LicenseType)
    (typeChanged : Bool) (drafts : LicenseTypeDrafts) (now : Instant) :
    Except DomainError TypeConfig :=
  match targetType with
  | .subscription =>
      if data.expiresAt = some none then
        .error (badRequest "Subscription licenses require expiresAt")
      else do
        match ← updatedExpiry current data.expiresAt typeChanged drafts now with
        | none => .error (badRequest "Subscription licenses require expiresAt")
        | some expiresAt => return ⟨some expiresAt, 0, none,
            { drafts with subscription := some (some expiresAt) }⟩
  | .trial =>
      let duration := data.trialDurationMinutes.or
        (if typeChanged then drafts.trial.map .integer
         else some (.integer current.trialDurationMinutes))
      match duration with
      | none => .error (badRequest "Trial licenses require trialDurationMinutes")
      | some duration => do
          let duration ← validateInteger duration "trialDurationMinutes" 1
          return ⟨none, duration, if typeChanged then some now else current.trialStartedAt,
            { drafts with trial := some duration }⟩
  | .lifetime => .ok ⟨none, 0, none, { drafts with lifetime := true }⟩
  | .metered => .ok ⟨none, 0, none, { drafts with metered := some (drafts.metered.getD []) }⟩

def validateLimit (value : Option Number) (label : String) : Except DomainError (Option Int) :=
  match value with
  | none => .ok none
  | some value => (validateInteger value label).map some

structure Limits where
  maxIps : Option Int
  maxDevices : Option Int
  maxSessions : Option Int

def validateLimits (maxIps maxDevices maxSessions : Option Number) : Except DomainError Limits := do
  let maxIps ← validateLimit maxIps "maxIps"
  let maxDevices ← validateLimit maxDevices "maxDevices"
  let maxSessions ← validateLimit maxSessions "maxSessions"
  return ⟨maxIps, maxDevices, maxSessions⟩

def requireLicense (id : LicenseId) : Server License := do
  match ← LicenseRepository.findById id with
  | some license => return license
  | none => throw (.domain (notFoundError "License" .licenseInvalid))

def requireCustomer (id : String) : Server Unit := do
  match ← CustomerRepository.findById id with
  | true => return ()
  | false => throw (.domain (notFoundError "Customer"))

structure Cleanup where
  removed : Nat
  failed : Bool

def removeSessionsBestEffort (id : LicenseId) (preserveFromRevision : Option Nat) :
    Server Cleanup :=
  tryCatch (do
    let removed ← SessionRepository.removeAllSessions id preserveFromRevision
    return ⟨removed, false⟩) fun _ => pure ⟨0, true⟩

def removeEachBestEffort : List LicenseId → Server Unit
  | [] => pure ()
  | id :: ids => do
      let _ ← removeSessionsBestEffort id none
      removeEachBestEffort ids

def createCustomer (id : String) : Server Unit := do
  perform (.insertCustomer id)
  capture "customer.created"

def deleteCustomer (id : String) : Server Unit := do
  requireCustomer id
  let licenses ← query fun tables =>
    tables.ids.filter (tables.ownedBy id)
  CustomerRepository.delete id
  removeEachBestEffort licenses
  capture "customer.deleted"

def newLicense (data : CreateLicenseInput) (limits : Limits) (config : TypeConfig)
    (meters : List NewLicenseMeter) : NewLicense :=
  { customerId := data.customerId
    type := data.type
    maxIps := limits.maxIps.getD 0
    maxDevices := limits.maxDevices.getD 0
    maxSessions := limits.maxSessions.getD 0
    trialDurationMinutes := config.trialDurationMinutes
    trialStartedAt := none
    metadata := data.metadata.getD "{}"
    expiresAt := config.expiresAt
    typeDrafts := config.typeDrafts
    meters }

def createLicense (data : CreateLicenseInput) : Server RevealedLicense := do
  requireCustomer data.customerId
  let limits ← ofDomain (validateLimits data.maxIps data.maxDevices data.maxSessions)
  let meters ← ofDomain (validateMeters (data.meters.getD []))
  let now ← draw
  let config ← ofDomain (createTypeConfig data meters now.now)
  let licenseKey ← perform .licenseKey
  let license ← LicenseRepository.create host licenseKey (newLicense data limits config meters)
  capture "license.created"
  return license

def requireFields (data : UpdateLicenseInput) : Except DomainError Unit :=
  if data.customerId.isSome ∨ data.type.isSome ∨ data.maxIps.isSome ∨ data.maxDevices.isSome ∨
      data.maxSessions.isSome ∨ data.trialDurationMinutes.isSome ∨ data.metadata.isSome ∨
      data.expiresAt.isSome ∨ data.meters.isSome then .ok ()
  else .error (badRequest "At least one license field is required")

def checkTypeFields (targetType : LicenseType) (data : UpdateLicenseInput) :
    Except DomainError Unit :=
  if targetType ≠ .subscription ∧ data.expiresAt.isSome then
    .error (badRequest "expiresAt is only valid for subscription licenses")
  else if targetType ≠ .trial ∧ data.trialDurationMinutes.isSome then
    .error (badRequest "trialDurationMinutes is only valid for trial licenses")
  else .ok ()

def checkNewMeters (targetType : LicenseType) (newMeters : List NewLicenseMeter) :
    Except DomainError Unit :=
  if targetType ≠ .metered ∧ newMeters ≠ [] then
    .error (badRequest "meters are only valid for metered licenses")
  else .ok ()

def addMeters : List NewLicenseMeter → List (String × Bool × Int) → Except DomainError Unit
  | [], _ => .ok ()
  | meter :: meters, allMeters => match allMeters.find? fun stored => stored.1 = meter.name with
      | some (_, archived, balance) =>
          if archived ∨ balance ≠ meter.balance then
            .error (conflictError s!"Meter {meter.name} already exists")
          else addMeters meters allMeters
      | none => addMeters meters ((meter.name, false, meter.balance) :: allMeters)

def meteredDraft (id : LicenseId) (targetType : LicenseType) (currentMeters : List LicenseMeter)
    (newMeters : List NewLicenseMeter) (active : TypeConfig) : Server TypeConfig :=
  if targetType = .metered then do
    let allMeters ← MeterRepository.listMeters id true
    ofDomain (addMeters newMeters
      (allMeters.map fun meter => (meter.name, meter.archivedAt.isSome, meter.balance)))
    let activeNames := (currentMeters.map LicenseMeter.name ++
      newMeters.map NewLicenseMeter.name).dedup
    if activeNames = [] then
      throw (.domain (badRequest "Metered licenses require at least one meter"))
    else return { active with
      typeDrafts := { active.typeDrafts with metered := some (sortNames activeNames) } }
  else pure active

def checkStripeLink (targetType : LicenseType) (data : UpdateLicenseInput)
    (link : Option StripeSubscriptionLink) : Except DomainError (Option StripeSubscriptionLink) :=
  if link.isSome ∧ targetType = .subscription ∧ data.expiresAt.isSome then
    .error (conflictError
      "Stripe-managed subscriptions cannot be renewed manually; sync or unlink Stripe first")
  else if link.isSome ∧ data.unlinkStripe ≠ some true then
    .error (conflictError
      "Confirm unlinkStripe when changing a Stripe-linked subscription license")
  else .ok link

def observedLink (id : LicenseId) (targetType : LicenseType) (data : UpdateLicenseInput) :
    Server (Option StripeSubscriptionLink) :=
  if host.stripeRepo ∧ (targetType ≠ .subscription ∨ data.expiresAt.isSome) then do
    let link ← StripeRepository.findByLicenseId id
    ofDomain (checkStripeLink targetType data link)
  else pure none

def licenseUpdate (current : License) (data : UpdateLicenseInput) (limits : Limits)
    (active : TypeConfig) : LicenseUpdate :=
  { customerId := some (data.customerId.getD current.customerId)
    type := some (data.type.getD current.type)
    maxIps := some (limits.maxIps.getD current.maxIps)
    maxDevices := some (limits.maxDevices.getD current.maxDevices)
    maxSessions := some (limits.maxSessions.getD current.maxSessions)
    trialDurationMinutes := some active.trialDurationMinutes
    trialStartedAt := if data.type.getD current.type ≠ current.type then some active.trialStartedAt
      else none
    metadata := some (data.metadata.getD current.metadata)
    expiresAt := some active.expiresAt
    typeDrafts := some active.typeDrafts }

def updateOptions (current : License) (data : UpdateLicenseInput) (newMeters : List NewLicenseMeter)
    (currentMeters : List LicenseMeter) : LicenseUpdateOptions :=
  { confirmStripeUnlink := data.unlinkStripe = some true
    expectedUpdatedAt := some current.updatedAt
    manualExpiresAtUpdate := data.expiresAt.isSome
    newMeters := newMeters.filter fun meter =>
      !currentMeters.any fun existing => existing.name = meter.name }

def checkCustomer (customerId : Option String) : Server Unit :=
  match customerId with
  | none => pure ()
  | some customerId => requireCustomer customerId

def dropObservedLink (id : LicenseId) (link : Option StripeSubscriptionLink) : Server Unit :=
  match link with
  | none => pure ()
  | some _ => do
      let _ ← StripeRepository.deleteByLicenseId id
      capture "stripe.unlinked"

def updateLicense (id : LicenseId) (data : UpdateLicenseInput) : Server ManagedLicense := do
  ofDomain (requireFields data)
  let current ← requireLicense id
  let limits ← ofDomain (validateLimits data.maxIps data.maxDevices data.maxSessions)
  checkCustomer data.customerId
  let targetType := data.type.getD current.type
  ofDomain (checkTypeFields targetType data)
  let newMeters ← ofDomain (validateMeters (data.meters.getD []))
  ofDomain (checkNewMeters targetType newMeters)
  let currentMeters ← MeterRepository.listMeters id false
  let now ← draw
  let config ← ofDomain (updateTypeConfig current data targetType (targetType ≠ current.type)
    (withCurrentDraft current (currentMeters.map LicenseMeter.name)) now.now)
  let active ← meteredDraft id targetType currentMeters newMeters config
  let stripeLink ← observedLink host id targetType data
  let updated ← LicenseRepository.update id (licenseUpdate current data limits active)
    (updateOptions current data newMeters currentMeters)
  dropObservedLink id stripeLink
  capture (if targetType ≠ current.type then "license.type_changed" else "license.updated")
  managed updated

def renewSubscription (id : LicenseId) (expiresAt : DateText) : Server ManagedLicense := do
  let current ← requireLicense id
  (if current.type ≠ .subscription then
    throw (.domain (badRequest "Only subscription licenses can be renewed"))
  else updateLicense host id { expiresAt := some (some expiresAt) })

def deleteLicense (id : LicenseId) : Server Unit := do
  let _ ← requireLicense id
  LicenseRepository.delete id
  let _ ← removeSessionsBestEffort id none
  capture "license.deleted"

def revokeLicense (id : LicenseId) (text : String) : Server ManagedLicense := do
  let license ← requireLicense id
  let normalizedReason ← ofDomain (reason text)
  let now ← draw
  let updated ← LicenseRepository.updateWithSessionInvalidation id
    { manualRevokedAt := some (some (license.manualRevokedAt.getD now.now))
      manualRevocationReason := some (some normalizedReason) }
  let _ ← removeSessionsBestEffort id (some updated.sessionRevision)
  capture "license.revoked"
  managed updated

def restoreLicense (id : LicenseId) : Server ManagedLicense := do
  let _ ← requireLicense id
  let updated ← LicenseRepository.update id
    { manualRevokedAt := some none, manualRevocationReason := some none } {}
  capture "license.restored"
  managed updated

def rotateLicenseKey (id : LicenseId) : Server RevealedLicense := do
  let current ← requireLicense id
  let licenseKey ← perform .licenseKey
  let rotated ← LicenseRepository.rotateKey host id licenseKey current.updatedAt
  let _ ← removeSessionsBestEffort id (some rotated.sessionRevision)
  capture "license.key_rotated"
  return rotated

def normalizedIp (value : String) : Server String :=
  match host.normalizeIpAddress value with
  | some ip => pure ip
  | none => throw (.domain (badRequest "A valid IPv4 or IPv6 address is required"))

structure AllowlistChange where
  restrictionEnabled : Bool
  deriving DecidableEq, Repr

def allowLicenseIp (id : LicenseId) (value : String) : Server AllowlistChange := do
  let _ ← requireLicense id
  let ip ← normalizedIp host value
  let before ← AccessRepository.getAccessRecords id
  AccessRepository.addAllowedIp id ip
  capture "license.updated"
  return ⟨before.allowedIps = []⟩

def removeLicenseAllowedIp (id : LicenseId) (value : String) : Server Bool := do
  let _ ← requireLicense id
  let ip ← normalizedIp host value
  let removed ← AccessRepository.removeAllowedIp id ip
  (if removed then capture "license.updated" else pure ())
  return removed

def allowLicenseDevice (id : LicenseId) (value : String) : Server AllowlistChange := do
  let _ ← requireLicense id
  let device ← ofDomain (deviceId value)
  let before ← AccessRepository.getAccessRecords id
  AccessRepository.addAllowedDevice id device
  capture "license.updated"
  return ⟨before.allowedDevices = []⟩

def removeLicenseAllowedDevice (id : LicenseId) (value : String) : Server Bool := do
  let _ ← requireLicense id
  let device ← ofDomain (deviceId value)
  let removed ← AccessRepository.removeAllowedDevice id device
  (if removed then capture "license.updated" else pure ())
  return removed

def incrementWhen (increments : Bool) (id : LicenseId) : Server (Option Nat × List Write) :=
  if increments then DeviceRepository.incrementLicenseSessionRevision id else pure (none, [])

/-- The registration transactions of the three removals. `always` tells a reset,
which increments the revision even if it removed nothing. -/
def removalStatements (id : LicenseId) (filter : DeviceFilter) (always : Bool) :
    Server ((Nat × Option Nat) × List Write) := do
  lock (.registration id)
  let (count, removal) ← DeviceRepository.removeRegistrations id filter
  let (sessionRevision, increment) ← incrementWhen (always || count > 0) id
  return ((count, sessionRevision), removal ++ increment)

def removalTransaction (id : LicenseId) (filter : DeviceFilter) (always : Bool) :
    Server (Nat × Option Nat) := do
  let (result, writes) ← orRollback (removalStatements id filter always)
  let _ ← commit id none writes
  return result

def cleanUpRemoval (id : LicenseId) (filter : DeviceFilter) (always : Bool) : Server Nat := do
  let (count, sessionRevision) ← removalTransaction id filter always
  if always || count > 0 then do
    let _ ← removeSessionsBestEffort id sessionRevision
    capture "license.updated"
    return count
  else return count

def removeRegisteredIp (id : LicenseId) (value : String) : Server Nat := do
  let _ ← requireLicense id
  let ip ← normalizedIp host value
  cleanUpRemoval id (.ip ip) false

def removeRegisteredDevice (id : LicenseId) (value : String) : Server Nat := do
  let _ ← requireLicense id
  let device ← ofDomain (deviceId value)
  cleanUpRemoval id (.device device) false

def resetRegisteredDevices (id : LicenseId) : Server Nat := do
  let _ ← requireLicense id
  cleanUpRemoval id .all true

def terminateLicenseSessions (id : LicenseId) : Server Nat := do
  let _ ← requireLicense id
  let updated ← LicenseRepository.incrementSessionRevision id
  let cleanup ← removeSessionsBestEffort id (some updated.sessionRevision)
  capture "license.updated"
  return cleanup.removed

def updateMeterDraft (id : LicenseId) : Server Unit := do
  let meters ← MeterRepository.listMeters id false
  let _ ← LicenseRepository.updateMeterDraft id (meters.map LicenseMeter.name)
  return ()

def createLicenseMeter (id : LicenseId) (data : CreateMeterInput) : Server LicenseMeter := do
  let _ ← requireLicense id
  match ← ofDomain (validateMeters [data]) with
  | [] => throw (.domain (badRequest "Meter is required"))
  | input :: _ => do
      let meter ← MeterRepository.createMeter id input.name input.balance input.reason
      updateMeterDraft id
      capture "meter.created"
      return meter

def archiveLicenseMeter (id : LicenseId) (name text : String) : Server LicenseMeter := do
  let _ ← requireLicense id
  let name ← ofDomain (meterName name)
  let normalizedReason ← ofDomain (reason text)
  match ← MeterRepository.archiveMeter id name normalizedReason with
  | none => throw (.domain (notFoundError "Meter" .meterNotFound))
  | some meter =>
      if meter.archivedAt.isNone then
        throw (.domain (conflictError "A metered license must keep at least one active meter"))
      else do
        updateMeterDraft id
        capture "meter.archived"
        return meter

def adjustResponse : MeterAdjustmentResult → Except DomainError LicenseMeter
  | .notFound => .error (notFoundError "Meter" .meterNotFound)
  | .archived => .error (conflictError "Meter is archived" .meterArchived)
  | .outOfRange =>
      .error (badRequest s!"Adjustment would move balance outside 0 to {maxLicenseLimit}")
  | .adjusted meter _ => .ok meter

def adjustMeter (id : LicenseId) (name : String) (delta : Int) (text : String)
    (kind : MeterLedgerKind) : Server LicenseMeter := do
  let _ ← requireLicense id
  let normalizedReason ← ofDomain (reason text)
  let name ← ofDomain (meterName name)
  let result ← MeterRepository.adjust id name delta normalizedReason kind
  let meter ← ofDomain (adjustResponse result)
  capture "meter.adjusted"
  return meter

def topUpLicenseMeter (id : LicenseId) (name : String) (units : Number) (text : String) :
    Server LicenseMeter := do
  let units ← ofDomain (validateInteger units "units" 1)
  adjustMeter id name units text .topUp

def adjustLicenseMeter (id : LicenseId) (name : String) (delta : Number) (text : String) :
    Server LicenseMeter := do
  let delta ← ofDomain (validateDelta delta)
  adjustMeter id name delta text .adjustment

end AdminService

end Keyzori
