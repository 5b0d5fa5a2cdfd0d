import Keyzori.Server.Repositories

namespace Keyzori

open Interleaving

structure LicenseSessionResult where
  licenseType : LicenseType
  metadata : String
  sessionToken : String
  sessionTtlSeconds : Nat
  deriving DecidableEq

def sessionResult (license : License) (sessionToken : String) : LicenseSessionResult :=
  ⟨license.type, license.metadata, sessionToken, sessionTtlSeconds⟩

def invalidSession : Failure :=
  .domain ⟨"Invalid or expired session token", 403, .sessionInvalidOrExpired⟩

def capture (type : String) : Server Unit :=
  tryCatch (perform (.capture type)) fun _ => pure ()

def statusError (status : EffectiveLicenseStatus) : Except Failure Unit :=
  match status.status with
  | .revoked => .error (.domain ⟨"License is revoked", 403, .licenseRevoked⟩)
  | .expired => .error (.domain ⟨"License has expired", 403, .licenseExpired⟩)
  | .active => .ok ()

def assertActive (license : License) : Server Unit := do
  let now ← draw
  ofExcept (statusError (deriveLicenseStatus license now.now))

def assertAllowed (license : LicenseWithAllowlists) (binding : SessionBinding) :
    Except Failure Unit :=
  if license.allowedIps ≠ [] ∧ binding.ip ∉ license.allowedIps then
    .error (.domain ⟨"IP address is not allowed", 403, .ipNotAllowed⟩)
  else if license.allowedDevices ≠ [] ∧ binding.deviceId ∉ license.allowedDevices then
    .error (.domain ⟨"Device is not allowed", 403, .deviceNotAllowed⟩)
  else .ok ()

def sessionBinding (ip device : String) : Except Failure SessionBinding :=
  match deviceId device with
  | .ok device => .ok ⟨trim ip, device⟩
  | .error error => .error (.domain error)

namespace LicenseService

variable (host : Host)

def removeSessionBestEffort (sessionToken : String) (binding : SessionBinding) : Server Unit :=
  tryCatch (do
    let _ ← SessionRepository.removeSession host sessionToken binding
    return ()) fun _ => pure ()

def touchBestEffort (id : LicenseId) (binding : SessionBinding) : Server Unit :=
  tryCatch (do
    match ← DeviceRepository.findRegisteredDevice id binding with
    | none => return ()
    | some device =>
        let now ← draw
        DeviceRepository.touchDevice id device.id now.now) fun _ => pure ()

def unchangedSince (license : License) (current : Option LicenseWithAllowlists) :
    Except Failure LicenseWithAllowlists :=
  match current with
  | some current =>
      if current.sessionRevision ≠ license.sessionRevision then
        .error (.domain ⟨"License changed during activation", 403, .licenseInvalid⟩)
      else .ok current
  | none => .error (.domain ⟨"License changed during activation", 403, .licenseInvalid⟩)

def checkLimits (current : License) (usage : LicenseDeviceUsage) : Except Failure Unit :=
  if current.maxIps > 0 ∧ usage.ipRegistered = false ∧ (usage.uniqueIps : Int) ≥ current.maxIps then
    .error (.domain ⟨"IP registration limit reached", 403, .ipRegistrationLimit⟩)
  else if current.maxDevices > 0 ∧ usage.deviceRegistered = false ∧
      (usage.uniqueDevices : Int) ≥ current.maxDevices then
    .error (.domain ⟨"Device registration limit reached", 403, .deviceRegistrationLimit⟩)
  else .ok ()

def checkRegistration (current : License) (binding : SessionBinding)
    (existing : Option RegisteredDevice) : Server Unit :=
  match existing with
  | some _ => pure ()
  | none => do
      let usage ← DeviceRepository.getLicenseDeviceUsage current.id binding
      ofExcept (checkLimits current usage)

def admissionPolicy (license : License) (binding : SessionBinding) :
    Server (LicenseWithAllowlists × Option RegisteredDevice) := do
  lock (.registration license.id)
  let policy ← DeviceRepository.findLicenseAdmissionPolicy license.id
  let current ← ofExcept (unchangedSince license policy)
  assertActive current.toLicense
  ofExcept (assertAllowed current binding)
  let existing ← DeviceRepository.findRegisteredDevice current.id binding
  checkRegistration current.toLicense binding existing
  return (current, existing)

def reserveSession (current : License) (binding : SessionBinding) : Server String := do
  match ← SessionRepository.registerSession host current.id current.sessionRevision binding
      current.maxSessions with
  | .limitReached =>
      throw (.domain ⟨"Maximum concurrent sessions reached", 403, .concurrentSessionLimit⟩)
  | .registered token => return token

def startTrial (current : LicenseWithAllowlists) : Server (LicenseWithAllowlists × List Write) :=
  if current.type = .trial ∧ current.trialStartedAt = none then do
    let now ← draw
    match ← DeviceRepository.startTrialIfUnset current.id now.now with
    | (none, _) => throw (.internal "Trial activation could not be persisted.")
    | (some trialStartedAt, writes) =>
        return ({ current with trialStartedAt := some trialStartedAt }, writes)
  else pure (current, [])

def registerUnlessExisting (id : LicenseId) (binding : SessionBinding)
    (existing : Option RegisteredDevice) : Server (List Write) :=
  match existing with
  | some _ => pure []
  | none => DeviceRepository.registerDevice id binding

def admissionWrites (current : LicenseWithAllowlists) (binding : SessionBinding)
    (existing : Option RegisteredDevice) : Server (LicenseWithAllowlists × List Write) := do
  let (admitted, started) ← startTrial current
  let registered ← registerUnlessExisting current.id binding existing
  return (admitted, started ++ registered)

def commitAdmission (current : LicenseWithAllowlists) (binding : SessionBinding)
    (existing : Option RegisteredDevice) : Server LicenseWithAllowlists := do
  let (admitted, writes) ← orRollback (admissionWrites current binding existing)
  let _ ← commit current.id none writes
  return admitted

/-- `sessionToken` is set by the registration, so only what throws after it
removes a session. -/
def admitActivation (license : License) (binding : SessionBinding) :
    Server (LicenseWithAllowlists × String) := do
  let (current, existing) ← orRollback (admissionPolicy license binding)
  let sessionToken ← orRollback (reserveSession host current.toLicense binding)
  let admitted ← tryCatch (commitAdmission current binding existing) fun error => do
    removeSessionBestEffort host sessionToken binding
    throw error
  touchBestEffort admitted.id binding
  return (admitted, sessionToken)

def lookUpAndAdmit (licenseKey : String) (binding : SessionBinding) :
    Server LicenseSessionResult := do
  let found ← LicenseRepository.findByLicenseKeyWithAllowlists host licenseKey
  capture "license.activation_attempted"
  match found with
  | none => throw (.domain ⟨"Invalid license key", 403, .licenseInvalid⟩)
  | some license =>
      let (admitted, sessionToken) ← admitActivation host license.toLicense binding
      capture "license.activation_succeeded"
      return sessionResult admitted.toLicense sessionToken

def activate (licenseKey deviceId ip : String) : Server LicenseSessionResult := do
  let binding ← ofExcept (sessionBinding ip deviceId)
  tryCatch (lookUpAndAdmit host licenseKey binding) fun error => do
    capture "license.activation_rejected"
    throw error

/-- The session's license id; no license has an id with the separator in it. -/
def sessionLicenseId (resolved : ResolvedSession) : Option LicenseId :=
  if plain : '|' ∉ resolved.licenseId.toList then some ⟨resolved.licenseId, plain⟩ else none

def rejectSession (sessionToken : String) (binding : SessionBinding) (error : Failure) :
    Server LicenseWithAllowlists := do
  removeSessionBestEffort host sessionToken binding
  throw error

def checkPolicy (license : LicenseWithAllowlists) (binding : SessionBinding) : Server Unit := do
  assertActive license.toLicense
  ofExcept (assertAllowed license binding)

def checkSessionLicense (license : LicenseWithAllowlists) (resolved : ResolvedSession)
    (binding : SessionBinding) : Server LicenseWithAllowlists :=
  if license.sessionRevision ≠ resolved.sessionRevision then
    rejectSession host resolved.token binding invalidSession
  else do
    tryCatch (checkPolicy license binding) fun error => do
      removeSessionBestEffort host resolved.token binding
      throw error
    return license

def requireActiveSessionLicense (resolved : ResolvedSession) (binding : SessionBinding) :
    Server LicenseWithAllowlists :=
  match sessionLicenseId resolved with
  | none => rejectSession host resolved.token binding invalidSession
  | some id => do
      match ← LicenseRepository.findById id with
      | none => rejectSession host resolved.token binding invalidSession
      | some license => do
          match ← LicenseRepository.findByIdWithAllowlists license.id with
          | none => rejectSession host resolved.token binding invalidSession
          | some withAllowlists => checkSessionLicense host withAllowlists resolved binding

def resolveSession (sessionToken : String) (binding : SessionBinding) :
    Server LicenseWithAllowlists := do
  match ← SessionRepository.refreshSession host sessionToken binding with
  | none => throw invalidSession
  | some resolved => requireActiveSessionLicense host resolved binding

def heartbeat (sessionToken deviceId ip : String) : Server LicenseSessionResult := do
  let binding ← ofExcept (sessionBinding ip deviceId)
  let license ← resolveSession host sessionToken binding
  touchBestEffort license.id binding
  capture "license.heartbeat"
  return sessionResult license.toLicense sessionToken

def consumeUnits (license : License) (input : UsageRequest) : Server ConsumeUsageResult :=
  if license.type ≠ .metered then
    throw (.domain ⟨"Usage can only be consumed from metered licenses", 400, .invalidRequest⟩)
  else do
    let result ← MeterRepository.consume host license.id input
    let response ← ofExcept ((consumeResponse input result).mapError Failure.domain)
    (match result with
      | .consumed _ _ => capture "usage.consumed"
      | _ => pure ())
    return response

def validateAndConsume (sessionToken : String) (binding : SessionBinding)
    (input : ConsumeUsageInput) : Server ConsumeUsageResult := do
  let request ← ofExcept ((validateUsageInput input).mapError Failure.domain)
  let license ← resolveSession host sessionToken binding
  consumeUnits host license.toLicense request

def consume (sessionToken deviceId ip : String) (input : ConsumeUsageInput) :
    Server ConsumeUsageResult := do
  let binding ← ofExcept (sessionBinding ip deviceId)
  tryCatch (validateAndConsume host sessionToken binding input) fun error => do
    capture "usage.rejected"
    throw error

/-- The license is only read to enrich the activity. -/
def enrichDeactivation (resolved : ResolvedSession) : Server Unit :=
  match sessionLicenseId resolved with
  | none => pure ()
  | some id => tryCatch (do
      let _ ← LicenseRepository.findById id
      return ()) fun _ => pure ()

def deactivate (sessionToken deviceId ip : String) : Server Unit := do
  let binding ← ofExcept (sessionBinding ip deviceId)
  match ← SessionRepository.removeSession host sessionToken binding with
  | none => return ()
  | some removed => do
      enrichDeactivation removed
      capture "license.deactivated"

end LicenseService

end Keyzori
